import AsioPy.ValueType
import Mathlib.Data.List.ProdSigma

/-!
# The template pickers

`make_static_template_picker` picks the class of a template's instance by the Python classes of the
arguments, trying the listed argument types in nested folds that stop at the first match;
`dynamic_template_picker_t` does the same with a vector of combinations that `add_types` has filled.
Both exist for one, two and three arguments. `template_pickers_interchangeable` says that they pick
alike.

A fold over `p || ...` that sets a captured object is a search for the first value (`fold_or_eq`),
and a search within a search is one over the product of the lists; so is the search in the vector.
-/

namespace AsioPy

variable {α β γ κ τ π φ : Type*}

/-- A fold `(p(as) || ...)`, where `p` may set the captured `obj`, or throw. -/
def fold_or (p : α → Option π → Except φ (Bool × Option π)) :
    List α → Option π → Except φ (Bool × Option π)
  | [], obj => .ok (false, obj)
  | a :: as, obj =>
    match p a obj with
    | .error x => .error x
    | .ok (true, obj) => .ok (true, obj)
    | .ok (false, obj) => fold_or p as obj

/-- The lambda `p` of the static pickers, for a combination with these Python types and this
instance: where the types are the ones asked for, `obj` is set to the class of the instance. -/
def compare_types (key : Except φ κ) (instance_ : Except φ π) (asked : κ → Bool)
    (obj : Option π) : Except φ (Bool × Option π) :=
  match key with
  | .error x => .error x
  | .ok k =>
    if asked k then
      match instance_ with
      | .error x => .error x
      | .ok t => .ok (true, some t)
    else .ok (false, obj)

/-- `dynamic_template_picker_t`: combinations of Python types, with the class of the instance. -/
structure DynamicTemplatePicker (κ π : Type*) where
  mp_ : List (κ × π)

/-- `pick`, with the lambda that it gives to `std::find_if`. -/
def DynamicTemplatePicker.pick (d : DynamicTemplatePicker κ π) (l : κ → Bool) : Option π :=
  (d.mp_.find? fun p => l p.1).map Prod.snd

/-- `add_type` -/
def DynamicTemplatePicker.add_type (key : Except φ κ) (instance_ : Except φ π)
    (d : DynamicTemplatePicker κ π) : Except φ (DynamicTemplatePicker κ π) :=
  match key, instance_ with
  | .error x, _ => .error x
  | _, .error x => .error x
  | .ok k, .ok t => .ok ⟨d.mp_ ++ [(k, t)]⟩

/-- `add_types`, for combinations with these types and instances. -/
def DynamicTemplatePicker.add_types (key : γ → Except φ κ) (instance_ : γ → Except φ π)
    (tags : List γ) (d : DynamicTemplatePicker κ π) : Except φ (DynamicTemplatePicker κ π) :=
  tags.foldlM (fun d c => d.add_type (key c) (instance_ c)) d

section Pickers

variable [DecidableEq π] (type_handle : τ → Except φ π)

/-- The Python types of two arguments, one after the other. -/
def type_handles_2 (c : τ × τ) : Except φ (π × π) :=
  match type_handle c.1, type_handle c.2 with
  | .error x, _ => .error x
  | _, .error x => .error x
  | .ok t1, .ok t2 => .ok (t1, t2)

/-- The Python types of three arguments. -/
def type_handles_3 (c : τ × τ × τ) : Except φ (π × π × π) :=
  match type_handle c.1, type_handles_2 type_handle c.2 with
  | .error x, _ => .error x
  | _, .error x => .error x
  | .ok t1, .ok t => .ok (t1, t)

/-- `make_static_template_picker` for one argument. -/
def make_static_template_picker_1 (Template : τ → τ) (Args : List τ) (tp : π) :
    Except φ (Option π) :=
  let p T := compare_types (type_handle T) (type_handle (Template T)) fun t => tp = t
  (fold_or p Args none).map Prod.snd

/-- `make_static_template_picker` for two arguments. -/
def make_static_template_picker_2 (Template : τ → τ → τ) (Args1 Args2 : List τ) (tp1 tp2 : π) :
    Except φ (Option π) :=
  let p T1 T2 := compare_types (type_handles_2 type_handle (T1, T2))
    (type_handle (Template T1 T2)) fun t => tp1 = t.1 && tp2 = t.2
  let q T := fold_or (p T) Args2
  (fold_or q Args1 none).map Prod.snd

/-- `make_static_template_picker` for three arguments. -/
def make_static_template_picker_3 (Template : τ → τ → τ → τ) (Args1 Args2 Args3 : List τ)
    (tp1 tp2 tp3 : π) : Except φ (Option π) :=
  let p T1 T2 T3 := compare_types (type_handles_3 type_handle (T1, T2, T3))
    (type_handle (Template T1 T2 T3)) fun t => tp1 = t.1 && tp2 = t.2.1 && tp3 = t.2.2
  let q T1 T2 := fold_or (p T1 T2) Args3
  let r T := fold_or (q T) Args2
  (fold_or r Args1 none).map Prod.snd

/-- `dynamic_template_picker_t<Template, 1>::add_types` on an empty picker. -/
def dynamic_template_picker_1 (Template : τ → τ) (tags : List τ) :
    Except φ (DynamicTemplatePicker π π) :=
  DynamicTemplatePicker.add_types type_handle (fun T => type_handle (Template T)) tags ⟨[]⟩

/-- `dynamic_template_picker_t<Template, 2>::add_types` on an empty picker. -/
def dynamic_template_picker_2 (Template : τ → τ → τ) (tags : List (τ × τ)) :
    Except φ (DynamicTemplatePicker (π × π) π) :=
  DynamicTemplatePicker.add_types (type_handles_2 type_handle)
    (fun c => type_handle (Template c.1 c.2)) tags ⟨[]⟩

/-- `dynamic_template_picker_t<Template, 3>::add_types` on an empty picker. -/
def dynamic_template_picker_3 (Template : τ → τ → τ → τ) (tags : List (τ × τ × τ)) :
    Except φ (DynamicTemplatePicker (π × π × π) π) :=
  DynamicTemplatePicker.add_types (type_handles_3 type_handle)
    (fun c => type_handle (Template c.1 c.2.1 c.2.2)) tags ⟨[]⟩

end Pickers

section Picks

variable [DecidableEq π]

/-- `dynamic_template_picker_t<Template, 1>::pick` -/
def DynamicTemplatePicker.pick_1 (d : DynamicTemplatePicker π π) (tp : π) : Option π :=
  d.pick fun k => k = tp

/-- `dynamic_template_picker_t<Template, 2>::pick` -/
def DynamicTemplatePicker.pick_2 (d : DynamicTemplatePicker (π × π) π) (tp1 tp2 : π) : Option π :=
  d.pick fun k => k.1 = tp1 && k.2 = tp2

/-- `dynamic_template_picker_t<Template, 3>::pick` -/
def DynamicTemplatePicker.pick_3 (d : DynamicTemplatePicker (π × π × π) π) (tp1 tp2 tp3 : π) :
    Option π :=
  d.pick fun k => k.1 = tp1 && k.2.1 = tp2 && k.2.2 = tp3

end Picks

/-- All types that are looked up for the combinations have a Python class. -/
def Registered (key : γ → Except φ κ) (instance_ : γ → Except φ π) (cs : List γ) : Prop :=
  ∀ c ∈ cs, (∃ k, key c = .ok k) ∧ ∃ t, instance_ c = .ok t

/-- `r` is the class of the instance for the first combination whose Python types are `query`, or
nothing if there is none. -/
def PicksFirst (key : γ → Except φ κ) (instance_ : γ → Except φ π) (cs : List γ) (query : κ)
    (r : Option π) : Prop :=
  (r = none ∧ ∀ c ∈ cs, key c ≠ .ok query) ∨
    ∃ before c after t, cs = before ++ c :: after ∧ (∀ b ∈ before, key b ≠ .ok query) ∧
      key c = .ok query ∧ instance_ c = .ok t ∧ r = some t

/-- How a search ends that found this value or none: whether it stops the fold, and `obj`. -/
def search_result (found obj : Option π) : Bool × Option π := (found.isSome, found.or obj)

/-- A fold whose tests are searches is the search for the first value. -/
theorem fold_or_eq {p : α → Option π → Except φ (Bool × Option π)} {found : α → Option π}
    {as : List α} (hp : ∀ a ∈ as, ∀ obj, p a obj = .ok (search_result (found a) obj))
    (obj : Option π) : fold_or p as obj = .ok (search_result (as.findSome? found) obj) := by
  induction as with
  | nil => rfl
  | cons a as ih =>
    have hrest := ih fun b hb => hp b (List.mem_cons_of_mem a hb)
    rw [fold_or, hp a List.mem_cons_self, List.findSome?_cons]
    rcases found a with - | t
    · exact hrest
    · rfl

/-- A search in one list within a search in another is the search in their product. -/
theorem findSome?_product (f : α × β → Option π) (as : List α) (bs : List β) :
    (as.findSome? fun a => bs.findSome? fun b => f (a, b)) = (as ×ˢ bs).findSome? f := by
  induction as with
  | nil => rfl
  | cons a as ih =>
    rw [List.findSome?_cons, List.product_cons, List.findSome?_append, List.findSome?_map, ih]
    show _ = (bs.findSome? fun b => f (a, b)).or _
    cases bs.findSome? fun b => f (a, b) <;> rfl

/-- What a combination gives for a query: the class of its instance, if it is the one asked for. -/
def instance_for (key : γ → Except φ κ) (instance_ : γ → Except φ π) (asked : κ → Bool) (c : γ) :
    Option π :=
  match key c, instance_ c with
  | .ok k, .ok t => if asked k then some t else none
  | _, _ => none

/-- The lambda `p` is a search in one combination. -/
theorem compare_types_eq {key : γ → Except φ κ} {instance_ : γ → Except φ π} {cs : List γ}
    (h : Registered key instance_ cs) (asked : κ → Bool) {c : γ} (hc : c ∈ cs) (obj : Option π) :
    compare_types (key c) (instance_ c) asked obj =
      .ok (search_result (instance_for key instance_ asked c) obj) := by
  obtain ⟨⟨k, hk⟩, t, ht⟩ := h c hc
  by_cases hasked : asked k <;>
    simp [compare_types, instance_for, search_result, hk, ht, hasked]

/-- The filled picker holds the combinations in order. -/
theorem DynamicTemplatePicker.add_types_eq {key : γ → Except φ κ} {instance_ : γ → Except φ π}
    {cs : List γ} (h : Registered key instance_ cs) (d : DynamicTemplatePicker κ π) :
    ∃ d', add_types key instance_ cs d = .ok d' ∧
      ∀ l, d'.pick l = (d.pick l).or (cs.findSome? (instance_for key instance_ l)) := by
  induction cs generalizing d with
  | nil => exact ⟨d, rfl, fun l => by simp⟩
  | cons c cs ih =>
    obtain ⟨⟨k, hk⟩, t, ht⟩ := h c List.mem_cons_self
    obtain ⟨d', hd', hpick⟩ :=
      ih (fun b hb => h b (List.mem_cons_of_mem c hb)) ⟨d.mp_ ++ [(k, t)]⟩
    refine ⟨d', ?_, fun l => ?_⟩
    · have hadd : d.add_type (key c) (instance_ c) = .ok ⟨d.mp_ ++ [(k, t)]⟩ := by
        rw [hk, ht]
        rfl
      unfold add_types at hd' ⊢
      rw [List.foldlM_cons, hadd]
      exact hd'
    · -- The new combination is searched after the others.
      have hnew : (⟨d.mp_ ++ [(k, t)]⟩ : DynamicTemplatePicker κ π).pick l =
          (d.pick l).or (instance_for key instance_ l c) := by
        unfold pick instance_for
        rw [hk, ht, List.find?_append, Option.map_or]
        by_cases hl : l k <;> simp [hl]
      rw [hpick l, hnew, Option.or_assoc, List.findSome?_cons]
      cases instance_for key instance_ l c <;> rfl

/-- A picker that has been filled with combinations searches them. -/
theorem DynamicTemplatePicker.pick_add_types {key : γ → Except φ κ} {instance_ : γ → Except φ π}
    {cs : List γ} (h : Registered key instance_ cs) :
    ∃ d, add_types key instance_ cs ⟨[]⟩ = .ok d ∧
      ∀ l, d.pick l = cs.findSome? (instance_for key instance_ l) :=
  add_types_eq h ⟨[]⟩

/-- The first combination that gives a class is the first one that matches. -/
theorem picksFirst_findSome? {key : γ → Except φ κ} {instance_ : γ → Except φ π} {cs : List γ}
    (h : Registered key instance_ cs) {asked : κ → Bool} {query : κ}
    (hasked : ∀ k, asked k = true ↔ k = query) :
    PicksFirst key instance_ cs query (cs.findSome? (instance_for key instance_ asked)) := by
  have hnone : ∀ c ∈ cs, (instance_for key instance_ asked c = none ↔ key c ≠ .ok query) := by
    intro c hc
    obtain ⟨⟨k, hk⟩, t, ht⟩ := h c hc
    simp [instance_for, hk, ht, hasked]
  have hsome : ∀ c ∈ cs, ∀ t, instance_for key instance_ asked c = some t →
      key c = .ok query ∧ instance_ c = .ok t := by
    intro c hc t
    obtain ⟨⟨k, hk⟩, t', ht'⟩ := h c hc
    simp [instance_for, hk, ht', hasked]
  rcases hr : cs.findSome? (instance_for key instance_ asked) with - | t
  · refine Or.inl ⟨rfl, fun c hc => (hnone c hc).mp ?_⟩
    exact List.findSome?_eq_none_iff.mp hr c hc
  · obtain ⟨before, c, after, rfl, hc, hbefore⟩ := List.findSome?_eq_some_iff.mp hr
    have hmem : c ∈ before ++ c :: after := List.mem_append_right before List.mem_cons_self
    obtain ⟨hkey, hinstance⟩ := hsome c hmem t hc
    refine Or.inr ⟨before, c, after, t, rfl, fun b hb => ?_, hkey, hinstance, rfl⟩
    exact (hnone b (List.mem_append_left _ hb)).mp (hbefore b hb)

variable [DecidableEq π]

/-- The static picker for one argument searches its list. -/
theorem make_static_template_picker_1_eq {type_handle : τ → Except φ π} {Template : τ → τ}
    {Args : List τ} (h : Registered type_handle (fun T => type_handle (Template T)) Args) (tp : π) :
    make_static_template_picker_1 type_handle Template Args tp =
      .ok (Args.findSome? (instance_for type_handle (fun T => type_handle (Template T))
        fun k => k = tp)) := by
  unfold make_static_template_picker_1
  simp only [eq_comm (a := tp)]
  rw [fold_or_eq fun T hT => compare_types_eq h _ hT]
  simp [Except.map, search_result]

/-- The static picker for two arguments searches the product of its lists. -/
theorem make_static_template_picker_2_eq {type_handle : τ → Except φ π} {Template : τ → τ → τ}
    {Args1 Args2 : List τ}
    (h : Registered (type_handles_2 type_handle) (fun c => type_handle (Template c.1 c.2))
      (Args1 ×ˢ Args2)) (tp1 tp2 : π) :
    make_static_template_picker_2 type_handle Template Args1 Args2 tp1 tp2 =
      .ok ((Args1 ×ˢ Args2).findSome? (instance_for (type_handles_2 type_handle)
        (fun c => type_handle (Template c.1 c.2)) fun k => k.1 = tp1 && k.2 = tp2)) := by
  unfold make_static_template_picker_2
  simp only [eq_comm (a := tp1), eq_comm (a := tp2)]
  rw [← findSome?_product, fold_or_eq fun T1 hT1 => fold_or_eq fun T2 hT2 =>
    compare_types_eq h _ (List.mem_product.mpr ⟨hT1, hT2⟩)]
  simp [Except.map, search_result]

/-- The static picker for three arguments searches the product of its lists. -/
theorem make_static_template_picker_3_eq {type_handle : τ → Except φ π} {Template : τ → τ → τ → τ}
    {Args1 Args2 Args3 : List τ}
    (h : Registered (type_handles_3 type_handle) (fun c => type_handle (Template c.1 c.2.1 c.2.2))
      (Args1 ×ˢ Args2 ×ˢ Args3)) (tp1 tp2 tp3 : π) :
    make_static_template_picker_3 type_handle Template Args1 Args2 Args3 tp1 tp2 tp3 =
      .ok ((Args1 ×ˢ Args2 ×ˢ Args3).findSome? (instance_for (type_handles_3 type_handle)
        (fun c => type_handle (Template c.1 c.2.1 c.2.2))
        fun k => k.1 = tp1 && k.2.1 = tp2 && k.2.2 = tp3)) := by
  unfold make_static_template_picker_3
  simp only [eq_comm (a := tp1), eq_comm (a := tp2), eq_comm (a := tp3)]
  rw [← findSome?_product]
  simp only [← findSome?_product (fun c : τ × τ => instance_for _ _ _ (_, c))]
  rw [fold_or_eq fun T1 hT1 => fold_or_eq fun T2 hT2 => fold_or_eq fun T3 hT3 =>
    compare_types_eq h _ (List.mem_product.mpr ⟨hT1, List.mem_product.mpr ⟨hT2, hT3⟩⟩)]
  simp [Except.map, search_result]

/-- **The pickers are interchangeable.** For one, two and three arguments, whatever the lists of
argument types are: where every type that is looked up has a Python class, the dynamic picker can be
filled with all combinations in lexicographic order, and for every query the static picker returns
what the dynamic one does. This is the class of the instance for the first combination whose Python
types are those of the query, and `None` if there is none. -/
theorem template_pickers_interchangeable (type_handle : τ → Except φ π) (Template1 : τ → τ)
    (Template2 : τ → τ → τ) (Template3 : τ → τ → τ → τ) (Args1 Args2 Args3 : List τ) :
    (Registered type_handle (fun T => type_handle (Template1 T)) Args1 →
      ∃ d, dynamic_template_picker_1 type_handle Template1 Args1 = .ok d ∧ ∀ tp,
        make_static_template_picker_1 type_handle Template1 Args1 tp = .ok (d.pick_1 tp) ∧
        PicksFirst type_handle (fun T => type_handle (Template1 T)) Args1 tp (d.pick_1 tp)) ∧
    (Registered (type_handles_2 type_handle) (fun c => type_handle (Template2 c.1 c.2))
        (Args1 ×ˢ Args2) →
      ∃ d, dynamic_template_picker_2 type_handle Template2 (Args1 ×ˢ Args2) = .ok d ∧ ∀ tp1 tp2,
        make_static_template_picker_2 type_handle Template2 Args1 Args2 tp1 tp2 =
          .ok (d.pick_2 tp1 tp2) ∧
        PicksFirst (type_handles_2 type_handle) (fun c => type_handle (Template2 c.1 c.2))
          (Args1 ×ˢ Args2) (tp1, tp2) (d.pick_2 tp1 tp2)) ∧
    (Registered (type_handles_3 type_handle) (fun c => type_handle (Template3 c.1 c.2.1 c.2.2))
        (Args1 ×ˢ Args2 ×ˢ Args3) →
      ∃ d, dynamic_template_picker_3 type_handle Template3 (Args1 ×ˢ Args2 ×ˢ Args3) = .ok d ∧
        ∀ tp1 tp2 tp3,
        make_static_template_picker_3 type_handle Template3 Args1 Args2 Args3 tp1 tp2 tp3 =
          .ok (d.pick_3 tp1 tp2 tp3) ∧
        PicksFirst (type_handles_3 type_handle)
          (fun c => type_handle (Template3 c.1 c.2.1 c.2.2)) (Args1 ×ˢ Args2 ×ˢ Args3)
          (tp1, tp2, tp3) (d.pick_3 tp1 tp2 tp3)) := by
  refine ⟨fun h => ?_, fun h => ?_, fun h => ?_⟩
  · obtain ⟨d, hd, hpick⟩ := DynamicTemplatePicker.pick_add_types h
    refine ⟨d, hd, fun tp => ?_⟩
    rw [make_static_template_picker_1_eq h, DynamicTemplatePicker.pick_1, hpick]
    exact ⟨rfl, picksFirst_findSome? h (by simp)⟩
  · obtain ⟨d, hd, hpick⟩ := DynamicTemplatePicker.pick_add_types h
    refine ⟨d, hd, fun tp1 tp2 => ?_⟩
    rw [make_static_template_picker_2_eq h, DynamicTemplatePicker.pick_2, hpick]
    exact ⟨rfl, picksFirst_findSome? h (by simp [Prod.ext_iff])⟩
  · obtain ⟨d, hd, hpick⟩ := DynamicTemplatePicker.pick_add_types h
    refine ⟨d, hd, fun tp1 tp2 tp3 => ?_⟩
    rw [make_static_template_picker_3_eq h, DynamicTemplatePicker.pick_3, hpick]
    exact ⟨rfl, picksFirst_findSome? h (by simp [Prod.ext_iff, and_assoc])⟩

/-- The argument types of the test's pickers: `int`, `double` and `std::string`. -/
def test_args : List (ResultType String) :=
  [.value (.fundamental (.integer 32 true)), .value (.fundamental .floating), .value .string]

/-- The name that the test gives to an argument type. -/
def test_name : ResultType String → String
  | .value (.fundamental (.integer _ _)) => "int"
  | .value (.fundamental .floating) => "double"
  | _ => "str"

/-- The instances of the test's templates, each registered under its own name. -/
def bind_ (Ts : List (ResultType String)) : ResultType String :=
  .value (.registered (Ts.foldl (fun s T => s ++ "_" ++ test_name T) "bind"))

/-- The argument types have Python classes. -/
theorem type_handle_test_args {T : ResultType String} (h : T ∈ test_args) :
    ∃ t, type_handle T = .ok t := by
  simp only [test_args, List.mem_cons, List.not_mem_nil, or_false] at h
  rcases h with rfl | rfl | rfl <;> exact ⟨_, rfl⟩

/-- The pickers of the test, over all three argument types each. -/
theorem template_test_pickers :
    (∃ d, dynamic_template_picker_1 type_handle (fun T => bind_ [T]) test_args = .ok d ∧
      ∀ tp, make_static_template_picker_1 type_handle (fun T => bind_ [T]) test_args tp =
        .ok (d.pick_1 tp)) ∧
    (∃ d, dynamic_template_picker_2 type_handle (fun T U => bind_ [T, U])
        (test_args ×ˢ test_args) = .ok d ∧
      ∀ tp1 tp2, make_static_template_picker_2 type_handle (fun T U => bind_ [T, U]) test_args
        test_args tp1 tp2 = .ok (d.pick_2 tp1 tp2)) ∧
    ∃ d, dynamic_template_picker_3 type_handle (fun T U V => bind_ [T, U, V])
        (test_args ×ˢ test_args ×ˢ test_args) = .ok d ∧
      ∀ tp1 tp2 tp3, make_static_template_picker_3 type_handle (fun T U V => bind_ [T, U, V])
        test_args test_args test_args tp1 tp2 tp3 = .ok (d.pick_3 tp1 tp2 tp3) := by
  have hkeys2 : ∀ c ∈ test_args ×ˢ test_args, ∃ t, type_handles_2 type_handle c = .ok t := by
    intro c hc
    obtain ⟨t1, ht1⟩ := type_handle_test_args (List.mem_product.mp hc).1
    obtain ⟨t2, ht2⟩ := type_handle_test_args (List.mem_product.mp hc).2
    exact ⟨(t1, t2), by simp [type_handles_2, ht1, ht2]⟩
  have hkeys3 : ∀ c ∈ test_args ×ˢ test_args ×ˢ test_args,
      ∃ t, type_handles_3 type_handle c = .ok t := by
    intro c hc
    obtain ⟨t1, ht1⟩ := type_handle_test_args (List.mem_product.mp hc).1
    obtain ⟨t2, ht2⟩ := hkeys2 c.2 (List.mem_product.mp hc).2
    exact ⟨(t1, t2), by simp [type_handles_3, ht1, ht2]⟩
  obtain ⟨hone, htwo, hthree⟩ := template_pickers_interchangeable type_handle
    (fun T => bind_ [T]) (fun T U => bind_ [T, U]) (fun T U V => bind_ [T, U, V]) test_args
    test_args test_args
  obtain ⟨d1, hd1, h1⟩ := hone fun T hT => ⟨type_handle_test_args hT, _, rfl⟩
  obtain ⟨d2, hd2, h2⟩ := htwo fun c hc => ⟨hkeys2 c hc, _, rfl⟩
  obtain ⟨d3, hd3, h3⟩ := hthree fun c hc => ⟨hkeys3 c hc, _, rfl⟩
  exact ⟨⟨d1, hd1, fun tp => (h1 tp).1⟩, ⟨d2, hd2, fun tp1 tp2 => (h2 tp1 tp2).1⟩,
    d3, hd3, fun tp1 tp2 tp3 => (h3 tp1 tp2 tp3).1⟩

/-- Two of the test's queries, and one that no combination matches. -/
example :
    make_static_template_picker_2 type_handle (fun T U => bind_ [T, U]) test_args test_args
        .int .float = .ok (some (.cls "bind_int_double")) ∧
      make_static_template_picker_2 type_handle (fun T U => bind_ [T, U]) test_args test_args
        .float .int = .ok (some (.cls "bind_double_int")) ∧
      make_static_template_picker_2 type_handle (fun T U => bind_ [T, U]) test_args test_args
        (.cls "bytes") .int = .ok none :=
  ⟨rfl, rfl, rfl⟩

end AsioPy
