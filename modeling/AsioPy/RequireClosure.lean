import AsioPy.Lib.Exchange
import AsioPy.Options
import Mathlib.Data.Fintype.Pi
import Mathlib.Logic.Function.Basic

/-!
# The executor list is closed under `require`

The executor types of asio are templates over independent slots (blocking, outstanding work,
relationship), and requiring a property sets one slot. `slotTraits` is that reading of asio:
requiring is an update of one slot, so the updates may be exchanged (`exchanges_require`), and what
`apply_properties` computes by trying the properties in list order (`mem_apply_properties_iff`) is
all that any sequence of them reaches.
-/

namespace AsioPy

open Exchange

/-- An executor type: an instance of a family, with a value in each slot. -/
structure Executor (κ ι ν : Type*) where
  family : κ
  slots : ι → ν

/-- Executor types with finitely many slots can be compared. -/
instance {κ ι ν : Type*} [Fintype ι] [DecidableEq κ] [DecidableEq ν] :
    DecidableEq (Executor κ ι ν) := fun a b =>
  decidable_of_iff (a.family = b.family ∧ a.slots = b.slots)
    (by cases a; cases b; simp)

/-- A property: a slot, and the value that it requires there. -/
structure ExecutorProperty (ι ν : Type*) where
  slot : ι
  value : ν
  deriving DecidableEq

variable {κ ι ν : Type*} [DecidableEq ι]

/-- Asio on the executor types with slots: a property can be required where the family supports its
slot, and sets exactly that slot. -/
def slotTraits (supports : κ → ι → Bool)
    (can_prefer : Executor κ ι ν → ExecutorProperty ι ν → Bool) :
    ExecutorTraits (Executor κ ι ν) (ExecutorProperty ι ν) where
  can_require e p := supports e.family p.slot
  require_result e p := { e with slots := Function.update e.slots p.slot p.value }
  can_prefer := can_prefer

section Traits

variable {ε π : Type*} (T : ExecutorTraits ε π)

/-- `y` is the result of requiring a property of the list on `x`. -/
def RequireStep (properties : List π) (x y : ε) : Prop :=
  ∃ p ∈ properties, T.can_require x p ∧ y = T.require_result x p

/-- The executors that requiring the properties makes of `e`. -/
def executor_family (properties : List π) (e : ε) : Set ε :=
  {x | Relation.ReflTransGen (RequireStep T properties) e x}

/-- Requiring a property where it can be required, and leaving the executor as it is elsewhere: what
`apply_properties` calls `mine`, and `asio::prefer` the result. -/
theorem oneOf_prefer_cases {properties : List π} {x y : ε} :
    OneOf T.prefer_result properties x y → y = x ∨ RequireStep T properties x y := by
  rintro ⟨p, hp, rfl⟩
  unfold ExecutorTraits.prefer_result
  split
  · next h => exact Or.inr ⟨p, hp, h, rfl⟩
  · exact Or.inl rfl

/-- Requiring any number of times, and preferring any number of times, reach the same. -/
theorem reachable_prefer_iff {properties : List π} {x y : ε} :
    Relation.ReflTransGen (OneOf T.prefer_result properties) x y ↔
      Relation.ReflTransGen (RequireStep T properties) x y := by
  constructor
  · intro h
    induction h with
    | refl => exact .refl
    | tail _ hstep ih =>
      rcases oneOf_prefer_cases T hstep with rfl | hstep
      · exact ih
      · exact ih.tail hstep
  · have hstep : ∀ a b, RequireStep T properties a b → OneOf T.prefer_result properties a b := by
      rintro a _ ⟨p, hp, hreq, rfl⟩
      exact ⟨p, hp, if_pos hreq⟩
    exact Relation.ReflTransGen.mono hstep x y

/-- **What `apply_properties` computes.** The executor and what the properties make of it are what
results from preferring some of the properties in their order. -/
theorem mem_apply_properties_iff [DecidableEq ε] {properties : List π} {e x : ε} :
    (x = e ∨ x ∈ apply_properties T e properties) ↔ Chosen T.prefer_result properties e x := by
  induction properties generalizing e with
  | nil => simp [apply_properties, chosen_nil]
  | cons first properties ih =>
    rw [chosen_cons, ← ih, ← ih, mem_apply_properties_cons]
    by_cases hmod : T.prefer_result e first = e
    · -- The property changes nothing: both choices start from the executor itself.
      simp [hmod]
    · rw [and_iff_right hmod, or_left_comm]

/-- The families of the contexts and of `any_io_executor` do not meet. -/
def DisjointFamilies (properties : List π) (base : List ε) : Prop :=
  base.Pairwise fun a b => ∀ x ∈ executor_family T properties a, x ∉ executor_family T properties b

/-- What no property changes is alone in its family. -/
theorem eq_of_mem_executor_family {T : ExecutorTraits ε π} {properties : List π} {e x : ε}
    (h : ∀ p ∈ properties, T.can_require e p → T.require_result e p = e)
    (hx : x ∈ executor_family T properties e) : x = e := by
  induction hx with
  | refl => rfl
  | tail _ hstep ih =>
    obtain ⟨p, hp, hreq, rfl⟩ := hstep
    rw [ih] at hreq ⊢
    exact h p hp hreq

end Traits

/-- Setting slots: a property set after another one replaces it when the slots are the same, and
could be set before it when they are not. -/
theorem exchanges_require (supports : κ → ι → Bool)
    (can_prefer : Executor κ ι ν → ExecutorProperty ι ν → Bool) :
    Exchanges (slotTraits supports can_prefer).prefer_result where
  idem e p := by
    unfold ExecutorTraits.prefer_result slotTraits
    by_cases h : supports e.family p.slot <;> simp [h]
  swap e p q := by
    unfold ExecutorTraits.prefer_result slotTraits
    by_cases hp : supports e.family p.slot <;> by_cases hq : supports e.family q.slot <;>
      simp [hp, hq]
    by_cases hslot : p.slot = q.slot
    · left
      rw [hslot, Function.update_idem]
    · right
      exact Function.update_comm (Ne.symm hslot) _ _ _

/-- Executor types of different families do not meet. -/
theorem disjointFamilies_of_nodup {supports : κ → ι → Bool}
    {can_prefer : Executor κ ι ν → ExecutorProperty ι ν → Bool} {base : List (Executor κ ι ν)}
    {properties : List (ExecutorProperty ι ν)} (h : (base.map Executor.family).Nodup) :
    DisjointFamilies (slotTraits supports can_prefer) properties base := by
  have hfamily : ∀ e x, x ∈ executor_family (slotTraits supports can_prefer) properties e →
      x.family = e.family := by
    intro e x hx
    induction hx with
    | refl => rfl
    | tail _ hstep ih =>
      obtain ⟨p, -, -, rfl⟩ := hstep
      exact ih
  rw [List.Nodup, List.pairwise_map] at h
  refine h.imp fun {a b} hab x ha hb => hab ?_
  rw [← hfamily a x ha, ← hfamily b x hb]

/-- A list of executor types without duplicates that holds the base executors and exactly what
`require` steps make of them, so that no overload registered for its elements leads out of it. -/
structure RequireClosed {ε π : Type*} (T : ExecutorTraits ε π) (base : List ε) (properties : List π)
    (executors : List ε) : Prop where
  nodup : executors.Nodup
  base_mem : ∀ e ∈ base, e ∈ executors
  mem_iff : ∀ x, x ∈ executors ↔
    ∃ e ∈ base, Relation.ReflTransGen (RequireStep T properties) e x
  require_mem : ∀ o ∈ register_require T executors properties, o.result ∈ executors
  prefer_mem : ∀ o ∈ register_prefer T executors properties, o.result ∈ executors

/-- **The executor list is closed under `require`.** Whatever the families support, for every list
of base executors and every list of properties, in any order and with any repetitions. -/
theorem all_executors_closed [Fintype ι] [DecidableEq κ] [DecidableEq ν] (supports : κ → ι → Bool)
    (can_prefer : Executor κ ι ν → ExecutorProperty ι ν → Bool) (base : List (Executor κ ι ν))
    (properties : List (ExecutorProperty ι ν)) :
    RequireClosed (slotTraits supports can_prefer) base properties
      (all_executors (slotTraits supports can_prefer) base properties) := by
  generalize hT : slotTraits supports can_prefer = T
  have hex : Exchanges T.prefer_result := hT ▸ exchanges_require supports can_prefer
  -- The list holds what choosing in order reaches, which is what any sequence reaches.
  have hmem : ∀ x, x ∈ all_executors T base properties ↔
      ∃ e ∈ base, Relation.ReflTransGen (RequireStep T properties) e x := by
    intro x
    calc x ∈ all_executors T base properties
        ↔ ∃ e ∈ base, x = e ∨ x ∈ apply_properties T e properties := mem_all_executors
      _ ↔ ∃ e ∈ base, Chosen T.prefer_result properties e x := by
          simp only [mem_apply_properties_iff]
      _ ↔ ∃ e ∈ base, Relation.ReflTransGen (OneOf T.prefer_result properties) e x := by
          simp only [chosen_iff_reachable hex]
      _ ↔ ∃ e ∈ base, Relation.ReflTransGen (RequireStep T properties) e x := by
          simp only [reachable_prefer_iff]
  -- One more step from an executor of the list stays in it.
  have hclosed : ∀ x p, x ∈ all_executors T base properties → p ∈ properties →
      T.prefer_result x p ∈ all_executors T base properties := by
    intro x p hx hp
    obtain ⟨e, he, hreach⟩ := (hmem x).mp hx
    refine (hmem _).mpr ⟨e, he, ?_⟩
    rw [← reachable_prefer_iff] at hreach ⊢
    exact hreach.tail ⟨p, hp, rfl⟩
  refine ⟨nodup_as_set _, fun e he => (hmem e).mpr ⟨e, he, .refl⟩, hmem, ?_, ?_⟩
  · intro o ho
    obtain ⟨hexec, hprop, hreq, hres⟩ := mem_register_require ho
    have hres' : o.result = T.prefer_result o.exec o.prop := by
      rw [hres, ExecutorTraits.prefer_result, if_pos hreq]
    exact hres' ▸ hclosed o.exec o.prop hexec hprop
  · intro o ho
    obtain ⟨hexec, hprop, hres⟩ := mem_register_prefer ho
    exact hres ▸ hclosed o.exec o.prop hexec hprop

end AsioPy
