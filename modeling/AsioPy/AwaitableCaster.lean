import AsioPy.Awaitable
import Mathlib.Logic.Function.Basic

/-!
# The caster that takes the awaitable

`type_caster<asio::awaitable<T, Executor>>::load` takes the awaitable out of the wrapper that it is
given. pybind11 loads the arguments of a call from left to right, and gives up an overload at the
first that does not load, after which it tries the next, first without conversions and then with
them. What was taken by then goes with the casters of the overload that was given up.

`keeps_awaitables_iff` says for which calls that does not happen: `Orderly`, in terms of the
wrappers as they are before the call.
-/

namespace AsioPy

variable {κ ε φ ι α : Type*}

/-- The wrappers that Python holds, by object. -/
abbrev Wrappers (ι κ ε φ : Type*) := ι → AwaitableWrapper κ ε φ

/-- An argument of a call: an `awaitable_wrapper` or another object. -/
inductive CallArg (ι α : Type*) where
  | wrapper (w : ι)
  | other (a : α)

/-- A parameter of a bound function. -/
inductive Param (κ ε ι α : Type*) where
  /-- `asio::awaitable<T, Executor>` -/
  | awaitable (T : κ) (Executor : ε)
  /-- A parameter of another type, by what its caster loads, with conversions or without. -/
  | other (load : Bool → CallArg ι α → Bool)

variable [DecidableEq κ] [DecidableEq ε] [DecidableEq ι]

/-- `awaitable_wrapper::cast_and_steal` -/
def AwaitableWrapper.cast_and_steal (s : AwaitableWrapper κ ε φ) (T : κ) (Executor : ε) :
    Option φ × AwaitableWrapper κ ε φ :=
  match s.ptr with
  | some p =>
    if p.value_type = T ∧ p.executor_type = Executor then (p.aw, s.moved) else (none, s)
  | none => (none, s)

/-- `type_caster<...>::load`, with the wrappers after it. -/
def Param.load (convert : Bool) (st : Wrappers ι κ ε φ) :
    Param κ ε ι α → CallArg ι α → Bool × Wrappers ι κ ε φ
  | .awaitable T Executor, .wrapper w =>
    let r := (st w).cast_and_steal T Executor
    (r.1.isSome, Function.update st w r.2)
  | .awaitable _ _, .other _ => (false, st)
  | .other load, a => (load convert a, st)

/-- The casters of a call's parameters load its arguments from left to right, up to the first that
does not. -/
def load_args (convert : Bool) :
    List (Param κ ε ι α) → List (CallArg ι α) → Wrappers ι κ ε φ → Bool × Wrappers ι κ ε φ
  | p :: ps, a :: as, st =>
    match p.load convert st a with
    | (true, st) => load_args convert ps as st
    | (false, st) => (false, st)
  | [], [], st => (true, st)
  | _, _, st => (false, st)

/-- An overload, tried with conversions or without. -/
structure Attempt (κ ε ι α : Type*) where
  convert : Bool
  params : List (Param κ ε ι α)

/-- An attempt. The number of arguments is compared before any of them is loaded. -/
def Attempt.run (t : Attempt κ ε ι α) (args : List (CallArg ι α)) (st : Wrappers ι κ ε φ) :
    Bool × Wrappers ι κ ε φ :=
  if t.params.length = args.length then load_args t.convert t.params args st else (false, st)

/-- The attempts of a call: all overloads in the order of registration, without conversions, then
with them. -/
def attempts (overloads : List (List (Param κ ε ι α))) : List (Attempt κ ε ι α) :=
  overloads.map (Attempt.mk false) ++ overloads.map (Attempt.mk true)

/-- A call: the wrappers before and after each attempt that is rejected, whether one is accepted,
and the wrappers at the end. -/
def dispatch (args : List (CallArg ι α)) : List (Attempt κ ε ι α) → Wrappers ι κ ε φ →
    List (Wrappers ι κ ε φ × Wrappers ι κ ε φ) × Bool × Wrappers ι κ ε φ
  | [], st => ([], false, st)
  | t :: rest, st =>
    match t.run args st with
    | (true, st') => ([], true, st')
    | (false, st') =>
      let r := dispatch args rest st'
      ((st, st') :: r.1, r.2)

/-- No rejected attempt of the call takes an awaitable out of its wrapper. -/
def KeepsAwaitables (overloads : List (List (Param κ ε ι α))) (args : List (CallArg ι α))
    (st : Wrappers ι κ ε φ) : Prop :=
  ∀ r ∈ (dispatch args (attempts overloads) st).1, ∀ w, (r.2 w).ptr = (r.1 w).ptr

/-- All parameters accept their arguments, where the awaitables of the wrappers in `taken` are gone
already. -/
def Fits (convert : Bool) (st : Wrappers ι κ ε φ) :
    List ι → List (Param κ ε ι α) → List (CallArg ι α) → Prop
  | taken, .awaitable T Executor :: ps, .wrapper w :: as =>
    (w ∉ taken ∧ (st w).gives T Executor) ∧ Fits convert st (w :: taken) ps as
  | taken, .other load :: ps, a :: as => load convert a ∧ Fits convert st taken ps as
  | _, [], [] => True
  | _, _, _ => False

/-- A parameter refuses its argument, and none before it is an awaitable. -/
def RefusesFirst (convert : Bool) (st : Wrappers ι κ ε φ) :
    List (Param κ ε ι α) → List (CallArg ι α) → Prop
  | .awaitable T Executor :: _, .wrapper w :: _ => (st w).gives T Executor = false
  | .awaitable _ _ :: _, .other _ :: _ => True
  | .other load :: ps, a :: as => load convert a → RefusesFirst convert st ps as
  | [], [] => False
  | _, _ => True

/-- Up to the first attempt whose parameters accept all arguments, each has other arguments than
this one, or refuses an argument before an awaitable is taken. -/
def Orderly (args : List (CallArg ι α)) (st : Wrappers ι κ ε φ) : List (Attempt κ ε ι α) → Prop
  | [] => True
  | t :: rest =>
    Fits t.convert st [] t.params args ∨
      (t.params.length ≠ args.length ∨ RefusesFirst t.convert st t.params args) ∧
        Orderly args st rest

/-- `cast_and_steal` where it finds the awaitable. -/
theorem cast_and_steal_of_gives {s : AwaitableWrapper κ ε φ} {T : κ} {Executor : ε}
    (h : s.gives T Executor) :
    (s.cast_and_steal T Executor).1.isSome ∧ (s.cast_and_steal T Executor).2 = s.moved := by
  unfold AwaitableWrapper.gives at h
  unfold AwaitableWrapper.cast_and_steal
  rcases hp : s.ptr with - | p
  · simp [hp] at h
  · obtain ⟨hT, hExecutor, haw⟩ : p.value_type = T ∧ p.executor_type = Executor ∧ p.aw.isSome := by
      simpa [hp] using h
    simp [hT, hExecutor, haw]

/-- `cast_and_steal` where it does not. -/
theorem cast_and_steal_of_not_gives {s : AwaitableWrapper κ ε φ} {T : κ} {Executor : ε}
    (h : s.gives T Executor = false) : s.cast_and_steal T Executor = (none, s) := by
  unfold AwaitableWrapper.gives at h
  unfold AwaitableWrapper.cast_and_steal
  rcases hp : s.ptr with - | p
  · rfl
  · by_cases htypes : p.value_type = T ∧ p.executor_type = Executor
    · have haw : p.aw = none := by simpa [hp, htypes] using h
      -- What is moved from was empty.
      have hmoved : s.moved = s := by
        obtain ⟨ptr, queued⟩ := s
        obtain rfl : ptr = some p := hp
        obtain ⟨T', Executor', aw⟩ := p
        obtain rfl : aw = none := haw
        rfl
      simp [htypes, haw, hmoved]
    · simp [htypes]

/-- The step of the wrapper's machine is this function. -/
theorem cast_and_steal_step {s : AwaitableWrapper κ ε φ} (hptr : s.ptr.isSome) (T : κ)
    (Executor : ε) :
    awaitable_wrapper.step s (.cast_and_steal T Executor) =
      some ((s.cast_and_steal T Executor).1.elim .invalid .stolen,
        (s.cast_and_steal T Executor).2) := by
  obtain ⟨p, hp⟩ := Option.isSome_iff_exists.mp hptr
  by_cases hgives : s.gives T Executor
  · obtain ⟨hT, hExecutor, haw⟩ : p.value_type = T ∧ p.executor_type = Executor ∧ p.aw.isSome := by
      simpa [AwaitableWrapper.gives, hp] using hgives
    obtain ⟨aw, haw⟩ := Option.isSome_iff_exists.mp haw
    simp [awaitable_wrapper, AwaitableWrapper.cast_and_steal, hp, hT, hExecutor, haw]
  · rw [cast_and_steal_of_not_gives (Bool.not_eq_true _ ▸ hgives)]
    by_cases htypes : p.value_type = T ∧ p.executor_type = Executor
    · have haw : p.aw = none := by simpa [AwaitableWrapper.gives, hp, htypes] using hgives
      simp [awaitable_wrapper, hp, htypes, haw]
    · simp [awaitable_wrapper, hp, htypes]

/-- An awaitable that is moved from is not given. -/
@[simp] theorem gives_moved (s : AwaitableWrapper κ ε φ) (T : κ) (Executor : ε) :
    s.moved.gives T Executor = false := by
  unfold AwaitableWrapper.moved AwaitableWrapper.gives
  cases s.ptr with
  | none => rfl
  | some p => simp

/-- The caster takes the awaitable where the wrapper gives it. -/
theorem load_awaitable {st : Wrappers ι κ ε φ} {w : ι} {T : κ} {Executor : ε}
    (h : (st w).gives T Executor) (convert : Bool) :
    (Param.awaitable T Executor : Param κ ε ι α).load convert st (.wrapper w) =
      (true, Function.update st w (st w).moved) := by
  obtain ⟨hsome, hmoved⟩ := cast_and_steal_of_gives h
  simp only [Param.load, hsome, hmoved]

/-- The caster leaves the wrapper as it is where it does not. -/
theorem load_awaitable_refused {st : Wrappers ι κ ε φ} {w : ι} {T : κ} {Executor : ε}
    (h : (st w).gives T Executor = false) (convert : Bool) :
    (Param.awaitable T Executor : Param κ ε ι α).load convert st (.wrapper w) = (false, st) := by
  simp only [Param.load, cast_and_steal_of_not_gives h, Function.update_eq_self]
  rfl

/-- A wrapper that has lost its awaitable does not get it back. -/
theorem not_valid_load_args (convert : Bool) (ps : List (Param κ ε ι α))
    (as : List (CallArg ι α)) {st : Wrappers ι κ ε φ} {w : ι} (h : (st w).valid = false) :
    ((load_args convert ps as st).2 w).valid = false := by
  induction ps generalizing as st with
  | nil => cases as <;> exact h
  | cons p ps ih =>
    rcases as with - | ⟨a, as⟩
    · exact h
    rcases p with ⟨T, Executor⟩ | load
    · rcases a with v | a
      · by_cases hgives : (st v).gives T Executor
        · rw [load_args, load_awaitable hgives]
          apply ih
          by_cases hwv : w = v
          · rw [hwv, Function.update_self, AwaitableWrapper.valid_moved]
          · rw [Function.update_of_ne hwv]
            exact h
        · rw [load_args, load_awaitable_refused (Bool.not_eq_true _ ▸ hgives)]
          exact h
      · exact h
    · rcases hload : load convert a with - | -
      · simpa [load_args, Param.load, hload] using h
      · simpa [load_args, Param.load, hload] using ih as h

/-- An attempt that refuses before it takes leaves the wrappers as they are. -/
theorem load_args_of_refusesFirst {convert : Bool} {st : Wrappers ι κ ε φ}
    {ps : List (Param κ ε ι α)} {as : List (CallArg ι α)} (hlen : ps.length = as.length)
    (h : RefusesFirst convert st ps as) : load_args convert ps as st = (false, st) := by
  induction ps generalizing as with
  | nil =>
    obtain rfl : as = [] := List.eq_nil_of_length_eq_zero hlen.symm
    exact h.elim
  | cons p ps ih =>
    rcases as with - | ⟨a, as⟩
    · cases hlen
    rcases p with ⟨T, Executor⟩ | load
    · rcases a with w | a
      · rw [load_args, load_awaitable_refused h]
      · rfl
    · rcases hload : load convert a with - | -
      · simp [load_args, Param.load, hload]
      · simpa [load_args, Param.load, hload] using ih (Nat.succ.inj hlen) (h hload)

/-- An attempt that is rejected and leaves every awaitable where it is refuses before it takes. -/
theorem refusesFirst_of_load_args {convert : Bool} {st st' : Wrappers ι κ ε φ}
    {ps : List (Param κ ε ι α)} {as : List (CallArg ι α)}
    (h : load_args convert ps as st = (false, st')) (hkeeps : ∀ w, (st' w).ptr = (st w).ptr) :
    RefusesFirst convert st ps as := by
  induction ps generalizing as with
  | nil =>
    rcases as with - | ⟨a, as⟩
    · cases h
    · exact trivial
  | cons p ps ih =>
    rcases as with - | ⟨a, as⟩
    · cases p <;> exact trivial
    rcases p with ⟨T, Executor⟩ | load
    · rcases a with w | a
      · by_contra hgives
        replace hgives : (st w).gives T Executor = true := by
          simpa [RefusesFirst] using hgives
        -- The awaitable is taken here, and is gone at the end.
        rw [load_args, load_awaitable hgives] at h
        change load_args convert ps as _ = _ at h
        have hgone : ((load_args convert ps as (Function.update st w (st w).moved)).2 w).valid =
            false := not_valid_load_args convert ps as (by simp)
        rw [h] at hgone
        have hvalid := AwaitableWrapper.valid_of_gives hgives
        unfold AwaitableWrapper.valid at hgone hvalid
        rw [hkeeps w, hvalid] at hgone
        cases hgone
      · exact trivial
    · intro hload
      apply ih
      simpa [load_args, Param.load, hload] using h

/-- The wrapper's awaitable is given after some are taken exactly if it was given and is not among
them. -/
theorem gives_taken {st st' : Wrappers ι κ ε φ} {taken : List ι}
    (hst : ∀ w, st' w = if w ∈ taken then (st w).moved else st w) (w : ι) (T : κ) (Executor : ε) :
    (st' w).gives T Executor = true ↔ w ∉ taken ∧ (st w).gives T Executor = true := by
  rw [hst w]
  by_cases hw : w ∈ taken
  · simp [hw]
  · simp [hw]

/-- An attempt is accepted exactly if it fits. -/
theorem load_args_accepts_iff {convert : Bool} {st st' : Wrappers ι κ ε φ} {taken : List ι}
    (hst : ∀ w, st' w = if w ∈ taken then (st w).moved else st w) (ps : List (Param κ ε ι α))
    (as : List (CallArg ι α)) :
    (load_args convert ps as st').1 = true ↔ Fits convert st taken ps as := by
  induction ps generalizing as st' taken with
  | nil => cases as <;> simp [load_args, Fits]
  | cons p ps ih =>
    rcases as with - | ⟨a, as⟩
    · cases p <;> simp [load_args, Fits]
    rcases p with ⟨T, Executor⟩ | load
    · rcases a with w | a
      · unfold Fits
        rw [← gives_taken hst w T Executor]
        by_cases hgives : (st' w).gives T Executor
        · rw [load_args, load_awaitable hgives]
          have hst' : ∀ v, Function.update st' w (st' w).moved v =
              if v ∈ w :: taken then (st v).moved else st v := by
            intro v
            have hw := ((gives_taken hst w T Executor).mp hgives).1
            by_cases hvw : v = w
            · rw [hvw, Function.update_self, hst w]
              simp [hw]
            · rw [Function.update_of_ne hvw, hst v]
              simp [hvw]
          exact (ih hst' as).trans (by simp [hgives])
        · rw [load_args, load_awaitable_refused (Bool.not_eq_true _ ▸ hgives)]
          simp [hgives]
      · simp [load_args, Param.load, Fits]
    · unfold Fits
      rcases hload : load convert a with - | -
      · simp [load_args, Param.load, hload]
      · simpa [load_args, Param.load, hload] using ih hst as

omit [DecidableEq ι] in
/-- What fits has as many arguments as parameters. -/
theorem Fits.length_eq {convert : Bool} {st : Wrappers ι κ ε φ} {taken : List ι}
    {ps : List (Param κ ε ι α)} {as : List (CallArg ι α)} (h : Fits convert st taken ps as) :
    ps.length = as.length := by
  induction ps generalizing as taken with
  | nil =>
    rcases as with - | ⟨a, as⟩
    · rfl
    · exact h.elim
  | cons p ps ih =>
    rcases as with - | ⟨a, as⟩
    · cases p <;> exact h.elim
    rcases p with ⟨T, Executor⟩ | load
    · rcases a with w | a
      · exact congrArg Nat.succ (ih h.2)
      · exact h.elim
    · exact congrArg Nat.succ (ih h.2)

/-- An attempt is accepted exactly if it fits. -/
theorem Attempt.run_accepts_iff (t : Attempt κ ε ι α) (args : List (CallArg ι α))
    (st : Wrappers ι κ ε φ) : (t.run args st).1 = true ↔ Fits t.convert st [] t.params args := by
  unfold Attempt.run
  split_ifs with hlen
  · exact load_args_accepts_iff (by simp) t.params args
  · exact iff_of_false (by simp) fun h => hlen h.length_eq

/-- An attempt that cannot take anything leaves the wrappers as they are. -/
theorem Attempt.run_of_refuses {t : Attempt κ ε ι α} {args : List (CallArg ι α)}
    {st : Wrappers ι κ ε φ}
    (h : t.params.length ≠ args.length ∨ RefusesFirst t.convert st t.params args) :
    t.run args st = (false, st) := by
  unfold Attempt.run
  split_ifs with hlen
  · exact load_args_of_refusesFirst hlen (h.resolve_left fun hne => hne hlen)
  · rfl

/-- An attempt that is rejected and leaves every awaitable where it is could not take any. -/
theorem Attempt.refuses_of_run {t : Attempt κ ε ι α} {args : List (CallArg ι α)}
    {st st' : Wrappers ι κ ε φ} (h : t.run args st = (false, st'))
    (hkeeps : ∀ w, (st' w).ptr = (st w).ptr) :
    t.params.length ≠ args.length ∨ RefusesFirst t.convert st t.params args := by
  unfold Attempt.run at h
  split_ifs at h with hlen
  · exact Or.inr (refusesFirst_of_load_args h hkeeps)
  · exact Or.inl hlen

/-- The attempts of a list take nothing where they are rejected exactly if they are orderly. -/
theorem dispatch_keeps_iff (args : List (CallArg ι α)) (st : Wrappers ι κ ε φ)
    (ts : List (Attempt κ ε ι α)) :
    (∀ r ∈ (dispatch args ts st).1, ∀ w, (r.2 w).ptr = (r.1 w).ptr) ↔ Orderly args st ts := by
  induction ts with
  | nil => simp [dispatch, Orderly]
  | cons t rest ih =>
    have hfits := t.run_accepts_iff args st
    rcases hrun : t.run args st with ⟨_ | _, st'⟩
    · -- Rejected: what comes after starts from the wrappers that are left.
      rw [hrun] at hfits
      have hnot : ¬ Fits t.convert st [] t.params args := fun h => by simpa using hfits.mpr h
      have hdispatch : (dispatch args (t :: rest) st).1 =
          (st, st') :: (dispatch args rest st').1 := by
        simp [dispatch, hrun]
      rw [hdispatch, List.forall_mem_cons, Orderly]
      constructor
      · rintro ⟨hkeeps, hrest⟩
        have hrefuses := t.refuses_of_run hrun hkeeps
        obtain rfl : st' = st := by
          rw [t.run_of_refuses hrefuses] at hrun
          exact (congrArg Prod.snd hrun).symm
        exact Or.inr ⟨hrefuses, ih.mp hrest⟩
      · intro horderly
        obtain ⟨hrefuses, hrest⟩ := horderly.resolve_left hnot
        obtain rfl : st' = st := by
          rw [t.run_of_refuses hrefuses] at hrun
          exact (congrArg Prod.snd hrun).symm
        exact ⟨fun w => rfl, ih.mpr hrest⟩
    · rw [hrun] at hfits
      refine iff_of_true ?_ (Or.inl (hfits.mp rfl))
      simp [dispatch, hrun]

/-- **When a rejected call keeps the awaitable.** For every list of overloads, every argument list
and whatever the wrappers hold: no attempt that is rejected takes an awaitable out of its wrapper,
exactly if every attempt up to the first that fits refuses an argument before it comes to an
awaitable that it would take. -/
theorem keeps_awaitables_iff (overloads : List (List (Param κ ε ι α)))
    (args : List (CallArg ι α)) (st : Wrappers ι κ ε φ) :
    KeepsAwaitables overloads args st ↔ Orderly args st (attempts overloads) :=
  dispatch_keeps_iff args st (attempts overloads)

/-- A parameter of type `int`, where other objects are known by the names of their types. -/
def int_param : Param Unit Unit Unit String :=
  .other fun _ a =>
    match a with
    | .other type => type == "int"
    | .wrapper _ => false

/-- `f(awaitable, int)` is called with an awaitable and a `str`, and again with the awaitable and an
`int`: the first call is rejected, and so is the second, which would have been accepted as the
first. -/
theorem rejected_call_takes_awaitable :
    (dispatch [.wrapper (), .other "int"] (attempts [[.awaitable () (), int_param]])
        fun _ => AwaitableWrapper.new () () 7).2.1 = true ∧
      (dispatch [.wrapper (), .other "int"] (attempts [[.awaitable () (), int_param]])
        (dispatch [.wrapper (), .other "str"] (attempts [[.awaitable () (), int_param]])
          fun _ => AwaitableWrapper.new () () 7).2.2).2.1 = false ∧
      ¬ KeepsAwaitables [[.awaitable () (), int_param]] [.wrapper (), .other "str"]
        (fun _ => AwaitableWrapper.new () () 7) := by
  refine ⟨by decide, by decide, fun h => ?_⟩
  have hkept := h _ List.mem_cons_self ()
  cases hkept

end AsioPy
