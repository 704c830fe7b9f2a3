import AsioPy.Lib.Binding
import AsioPy.Lib.Overloads

/-!
# Calls of a registered function

A function that is registered with pybind11 has named parameters, and a caster for each of them. A
call is tried in two steps: the arguments are bound to the parameters, and the casters load the
values, with or without conversions.
-/

namespace AsioPy

open Binding

variable {β : Type}

/-- A parameter of a registered function, with its caster. -/
structure TypedParam (β : Type) where
  param : Binding.Param String β
  load : Bool → β → Bool
  load_mono : ∀ v, load false v = true → load true v = true

/-- What a parameter loads in either pass it loads with conversions. -/
theorem TypedParam.loads_true (p : TypedParam β) {convert : Bool} {v : β}
    (h : p.load convert v = true) : p.load true v = true := by
  cases convert with
  | true => exact h
  | false => exact p.load_mono v h

/-- What a parameter loads without conversions it loads in either pass. -/
theorem TypedParam.loads_of_false (p : TypedParam β) {convert : Bool} {v : β}
    (h : p.load false v = true) : p.load convert v = true := by
  cases convert with
  | true => exact p.load_mono v h
  | false => exact h

/-- A parameter whose caster does not convert. -/
def class_param (name : String) (load : β → Bool) : TypedParam β where
  param := ⟨name, none⟩
  load _ v := load v
  load_mono _ h := h

/-- The values load, each with the caster of its parameter. -/
def loads_all (convert : Bool) (params : List (TypedParam β)) (values : List β) : Bool :=
  (params.zip values).all fun x => x.1.load convert x.2

/-- Values that load in either pass load with conversions. -/
theorem loads_all_true {convert : Bool} {params : List (TypedParam β)} {values : List β}
    (h : loads_all convert params values = true) : loads_all true params values = true := by
  rw [loads_all, List.all_eq_true] at h ⊢
  intro x hx
  exact x.1.loads_true (h x hx)

/-- The values of two groups of parameters load on their own. -/
theorem loads_all_append {convert : Bool} {first rest : List (TypedParam β)} {xs ys : List β}
    (h : xs.length = first.length) :
    loads_all convert (first ++ rest) (xs ++ ys) =
      (loads_all convert first xs && loads_all convert rest ys) := by
  rw [loads_all, List.zip_append h.symm, List.all_append, loads_all, loads_all]

/-- A function is tried: the call is bound to its parameters and the values are loaded. -/
def load_call (convert : Bool) (params : List (TypedParam β)) (c : Call String β) :
    Option (List β) :=
  match Binding.bind (params.map TypedParam.param) c with
  | none => none
  -- Defaults are loaded as arguments are.
  | some vs => if loads_all convert params vs then some vs else none

/-- The values of a call that is bound and loads. -/
theorem load_call_eq_some_iff {convert : Bool} {params : List (TypedParam β)} {c : Call String β}
    {vs : List β} :
    load_call convert params c = some vs ↔
      Bound (params.map TypedParam.param) c vs ∧ loads_all convert params vs = true := by
  unfold load_call
  constructor
  · intro h
    split at h
    · cases h
    · next ws hbind =>
      split_ifs at h with hload
      obtain rfl := Option.some.inj h
      exact ⟨bind_iff.mp hbind, hload⟩
  · rintro ⟨hbound, hload⟩
    rw [bind_iff.mpr hbound]
    simp only [hload, if_true]

/-- An overload is found together with the values that it loads. -/
theorem map_mk_eq_some_iff {α γ : Type} {loaded : Option α} {o : γ} {r : γ × α} :
    loaded.map (fun vs => (o, vs)) = some r ↔ r.1 = o ∧ loaded = some r.2 := by
  obtain ⟨o', vs⟩ := r
  rw [Option.map_eq_some_iff]
  constructor
  · rintro ⟨_, hloaded, heq⟩
    obtain ⟨rfl, rfl⟩ := Prod.mk.inj heq
    exact ⟨rfl, hloaded⟩
  · rintro ⟨rfl, hloaded⟩
    exact ⟨vs, hloaded, rfl⟩

/-- Positional arguments for the first parameters load on their own, and the rest of the call loads
for the other parameters. -/
theorem load_call_append {convert : Bool} {first rest : List (TypedParam β)} {xs as vs : List β}
    {kw : AList fun _ : String => β} (h : xs.length = first.length) :
    load_call convert (first ++ rest) ⟨xs ++ as, kw⟩ = some vs ↔
      (∀ p ∈ first, p.param.name ∉ kw) ∧ loads_all convert first xs = true ∧
        ∃ ws, load_call convert rest ⟨as, kw⟩ = some ws ∧ vs = xs ++ ws := by
  have hlen : xs.length = (first.map TypedParam.param).length := by rw [h, List.length_map]
  simp only [load_call_eq_some_iff, ← bind_iff]
  rw [List.map_append, bind_append hlen, List.forall_mem_map]
  constructor
  · rintro ⟨⟨hfirst, ws, hws, rfl⟩, hload⟩
    rw [loads_all_append h, Bool.and_eq_true] at hload
    exact ⟨hfirst, hload.1, ws, ⟨hws, hload.2⟩, rfl⟩
  · rintro ⟨hfirst, hxs, ws, ⟨hws, hload⟩, rfl⟩
    exact ⟨⟨hfirst, ws, hws, rfl⟩, by rw [loads_all_append h, hxs, hload]; rfl⟩

/-- A positional argument loads for the first parameter. -/
theorem load_call_cons {convert : Bool} {p : TypedParam β} {ps : List (TypedParam β)} {a : β}
    {as vs : List β} {kw : AList fun _ : String => β} :
    load_call convert (p :: ps) ⟨a :: as, kw⟩ = some vs ↔
      p.param.name ∉ kw ∧ p.load convert a = true ∧
        ∃ ws, load_call convert ps ⟨as, kw⟩ = some ws ∧ vs = a :: ws := by
  -- A group of one parameter.
  have happend := @load_call_append _ convert [p] ps [a] as vs kw rfl
  simpa [loads_all] using happend

/-- A call without arguments loads for no parameters. -/
theorem load_call_nil {convert : Bool} {as vs : List β} {kw : AList fun _ : String => β} :
    load_call convert [] ⟨as, kw⟩ = some vs ↔ as = [] ∧ kw.keys = [] ∧ vs = [] := by
  simp only [load_call_eq_some_iff, ← bind_iff]
  -- An argument or a keyword that is left over refuses the call.
  rcases as with - | ⟨a, as⟩
  · by_cases hkeys : kw.keys = [] <;> simp [Binding.bind, fill, hkeys, loads_all, eq_comm]
  · simp [Binding.bind]

/-- A parameter without an argument loads its default. -/
theorem load_call_default {convert : Bool} {p : TypedParam β} {ps : List (TypedParam β)}
    {vs : List β} {kw : AList fun _ : String => β} (h : p.param.name ∉ kw) :
    load_call convert (p :: ps) ⟨[], kw⟩ = some vs ↔
      ∃ d ws, p.param.default = some d ∧ p.load convert d = true ∧
        load_call convert ps ⟨[], kw⟩ = some ws ∧ vs = d :: ws := by
  simp only [load_call_eq_some_iff, ← bind_iff]
  rw [List.map_cons, bind_default h]
  constructor
  · rintro ⟨⟨d, ws, hd, hws, rfl⟩, hload⟩
    have hboth : (p.load convert d && loads_all convert ps ws) = true := hload
    rw [Bool.and_eq_true] at hboth
    exact ⟨d, ws, hd, hboth.1, ⟨hws, hboth.2⟩, rfl⟩
  · rintro ⟨d, ws, hd, hload, ⟨hws, hloads⟩, rfl⟩
    refine ⟨⟨d, ws, hd, hws, rfl⟩, ?_⟩
    show (p.load convert d && loads_all convert ps ws) = true
    rw [hload, hloads]
    rfl

/-- The value that a call gives to the parameter `name` in front of all others. -/
def first_value (c : Call String β) (name : String) : Option β :=
  (c.args[0]?).or (c.kwargs.lookup name)

/-- The first value of a call that is bound. -/
theorem first_value_eq {params : List (Binding.Param String β)} {name : String}
    {c : Call String β} {vs : List β} (h : Bound (⟨name, none⟩ :: params) c vs) :
    vs[0]? = first_value c name := by
  have hp : (⟨name, none⟩ :: params : List (Binding.Param String β))[0]? = some ⟨name, none⟩ := rfl
  rw [h.value_eq hp, first_value]
  simp [value]

end AsioPy
