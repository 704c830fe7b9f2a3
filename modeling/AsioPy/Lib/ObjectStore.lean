import Mathlib.Data.List.Basic
import Mathlib.Logic.Function.Basic

/-!
# Names that refer to objects

A store of objects with identity, and an environment of references to them: two references may refer
to the same object, and a change of that object is then seen through both. The lemmas `value_*` say
what every reference sees after each way of changing a store, and `mutate_frame_iff` when a change
in place is seen through its own reference only.
-/

/-- Objects with values `ν`, by their identity, and the references `ρ` that refer to them. -/
structure ObjectStore (ρ ν : Type*) where
  /-- The values of the objects, an object's identity being its index. -/
  objs : List ν
  /-- The object that a reference refers to, if it is bound. -/
  env : ρ → Option ℕ
  /-- Every bound reference refers to an object. -/
  env_lt : ∀ r i, env r = some i → i < objs.length

namespace ObjectStore

variable {ρ ν : Type*}

/-- The value seen through a reference. -/
def value (s : ObjectStore ρ ν) (r : ρ) : Option ν := (s.env r).bind fun i => s.objs[i]?

/-- The store with a new object of value `v`, which nothing refers to yet. -/
def alloc (s : ObjectStore ρ ν) (v : ν) : ObjectStore ρ ν where
  objs := s.objs ++ [v]
  env := s.env
  env_lt r i h := by
    have hi := s.env_lt r i h
    rw [List.length_append, List.length_singleton]
    omega

/-- The object `i` takes the value `v`. -/
def write (s : ObjectStore ρ ν) (i : ℕ) (v : ν) : ObjectStore ρ ν where
  objs := s.objs.set i v
  env := s.env
  env_lt r j h := by simpa using s.env_lt r j h

/-- A new object changes nothing that is seen. -/
theorem value_alloc (s : ObjectStore ρ ν) (v : ν) (r : ρ) : (s.alloc v).value r = s.value r := by
  cases hr : s.env r with
  | none => simp [value, alloc, hr]
  | some i => simp [value, alloc, hr, List.getElem?_append_left (s.env_lt r i hr)]

/-- What is seen after an object has taken a value: the references to it see the value. -/
theorem value_write {s : ObjectStore ρ ν} {i : ℕ} (hi : i < s.objs.length) (v : ν) (r : ρ) :
    (s.write i v).value r = if s.env r = some i then some v else s.value r := by
  cases hr : s.env r with
  | none => simp [value, write, hr]
  | some j =>
    by_cases hj : i = j
    · subst hj
      simp [value, write, hr, hi]
    · have : ¬ j = i := fun h => hj h.symm
      simp [value, write, hr, hj, this]

variable [DecidableEq ρ]

/-- `t` comes to refer to the object `i`. -/
def refer (s : ObjectStore ρ ν) (t : ρ) (i : ℕ) (h : i < s.objs.length) : ObjectStore ρ ν where
  objs := s.objs
  env := Function.update s.env t (some i)
  env_lt r j hj := by
    by_cases hr : r = t
    · subst hr
      obtain rfl : i = j := by simpa using hj
      exact h
    · exact s.env_lt r j (by simpa [Function.update_of_ne hr] using hj)

/-- `t = r`: `t` comes to refer to the object that `r` refers to. -/
def assign (s : ObjectStore ρ ν) (t r : ρ) : Option (ObjectStore ρ ν) :=
  match h : s.env r with
  | some i => some (s.refer t i (s.env_lt r i h))
  | none => none

/-- `t` comes to refer to a new object of value `v`. -/
def create (s : ObjectStore ρ ν) (t : ρ) (v : ν) : ObjectStore ρ ν :=
  (s.alloc v).refer t s.objs.length (by simp [alloc])

/-- The object that `t` refers to takes the value `v`, and `t` comes to refer to a copy of it. -/
def mutate (s : ObjectStore ρ ν) (t : ρ) (v : ν) : Option (ObjectStore ρ ν) :=
  (s.env t).map fun i => (s.write i v).create t v

/-- What is seen after `t` has come to refer to an object. -/
theorem value_refer (s : ObjectStore ρ ν) (t : ρ) (i : ℕ) (h : i < s.objs.length) (r : ρ) :
    (s.refer t i h).value r = if r = t then s.objs[i]? else s.value r := by
  by_cases hr : r = t
  · simp [value, refer, hr]
  · simp [value, refer, hr]

/-- What is seen after an assignment. -/
theorem value_assign {s s' : ObjectStore ρ ν} {t r : ρ} (h : s.assign t r = some s') (x : ρ) :
    s'.value x = if x = t then s.value r else s.value x := by
  unfold assign at h
  split at h
  · next i hi =>
    obtain rfl := Option.some.inj h
    rw [value_refer]
    simp [value, hi]
  · cases h

/-- What is seen after the creation of an object. -/
theorem value_create (s : ObjectStore ρ ν) (t : ρ) (v : ν) (r : ρ) :
    (s.create t v).value r = if r = t then some v else s.value r := by
  rw [create, value_refer, value_alloc]
  simp [alloc]

/-- What is seen after a change in place: the references that shared the object see the change. -/
theorem value_mutate {s s' : ObjectStore ρ ν} {t : ρ} {v : ν} (h : s.mutate t v = some s') (r : ρ) :
    s'.value r = if r = t ∨ s.env r = s.env t then some v else s.value r := by
  obtain ⟨i, hi, rfl⟩ := Option.map_eq_some_iff.mp h
  rw [value_create, value_write (s.env_lt t i hi), hi]
  by_cases hr : r = t
  · simp [hr]
  · simp [hr]

/-- A change in place leaves what the other references see as it is, exactly when the value is the
old one or no other reference shares the object. -/
theorem mutate_frame_iff {s s' : ObjectStore ρ ν} {t : ρ} {v : ν} (h : s.mutate t v = some s') :
    (∀ r, r ≠ t → s'.value r = s.value r) ↔
      ∀ r, r ≠ t → s.env r = s.env t → some v = s.value t := by
  refine forall₂_congr fun r hr => ?_
  rw [value_mutate h]
  by_cases he : s.env r = s.env t
  · have : s.value r = s.value t := by simp [value, he]
    simp [he, this]
  · simp [he, hr]

end ObjectStore
