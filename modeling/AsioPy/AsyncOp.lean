import AsioPy.AsTuple
import AsioPy.FunctionCall

/-!
# Calls of an asynchronous operation

`register_async_op` defines every asynchronous operation three times under one name: with a
`callback`, with a `token` that must be `detached`, and with neither, which returns an awaitable.
Behind the operation's own parameters each has the options `cancellation_slot`, `executor` and
`as_tuple`. pybind11 binds a call to the parameters of each overload and has its casters load the
values, first without conversions and then with them, and calls the first overload that loads.

`async_op_dispatch_eq` says that the order of the overloads and the two passes do not matter, and
`async_op_call` which argument is the handler and where each option comes from. In particular the
handler is the argument right behind the operation's own, or the keyword `callback` or `token`, and
a callable in any other place is never called back; and where one of the operation's own parameters
is called `executor`, the keyword `executor` never reaches the option. `async_op_round_trip` says
that every handler and every choice of the options can be asked for, by keyword where none of the
operation's own parameters has the name of an option.
-/

namespace AsioPy

open Binding

variable {β κ ε ω : Type}

/-- What pybind11's casters make of a Python object: those with a `Bool` convert if it is set. -/
structure Casters (β κ ε : Type) where
  is_none : β → Bool
  /-- `py::function` takes every callable. -/
  function : β → Bool
  /-- `asio::detached_t` -/
  detached : β → Bool
  /-- `asio::cancellation_slot` -/
  slot : β → Option κ
  /-- `asio::any_io_executor` -/
  executor : Bool → β → Option ε
  bool : Bool → β → Option Bool
  /-- `None`, the default of the optional parameters. -/
  none_ : β
  /-- `False`, the default of `as_tuple`. -/
  false_ : β
  is_none_none : is_none none_ = true
  bool_false : ∀ convert, bool convert false_ = some false
  /-- What loads without conversions loads with them, as the same. -/
  executor_mono : ∀ v e, executor false v = some e → executor true v = some e
  bool_mono : ∀ v t, bool false v = some t → bool true v = some t

/-- `optional_caster<T>::load`: `None` is no value. -/
def Casters.optional {α : Type} (py : Casters β κ ε) (load : β → Option α) (v : β) :
    Option (Option α) :=
  if py.is_none v then some none else (load v).map some

/-- A parameter of an operation that takes an `asio::any_io_executor`. -/
def Casters.executor_param (py : Casters β κ ε) (name : String) : TypedParam β where
  param := ⟨name, none⟩
  load convert v := (py.executor convert v).isSome
  load_mono v h := by
    obtain ⟨e, he⟩ := Option.isSome_iff_exists.mp h
    rw [py.executor_mono v e he]
    rfl

/-- Who is told of the completion. -/
inductive Handler (β : Type) where
  | callback (func : β)
  | detached
  | use_awaitable

/-- The three overloads of `register_async_op`. -/
inductive TokenOverload where
  | callback
  | token
  | awaitable
  deriving DecidableEq

/-- The parameter for the handler, which has no default. -/
def TokenOverload.names : TokenOverload → List String
  | .callback => ["callback"]
  | .token => ["token"]
  | .awaitable => []

/-- The parameters for the options. -/
def Casters.options (py : Casters β κ ε) : List (Binding.Param String β) :=
  [⟨"cancellation_slot", some py.none_⟩, ⟨"executor", some py.none_⟩,
    ⟨"as_tuple", some py.false_⟩]

/-- An overload: the operation that it starts, the operation's own parameters, and its kind. -/
structure AsyncOverload (β ω : Type) where
  op : ω
  own : List (TypedParam β)
  kind : TokenOverload

/-- The parameters of an overload. -/
def AsyncOverload.params (py : Casters β κ ε) (o : AsyncOverload β ω) :
    List (Binding.Param String β) :=
  o.own.map TypedParam.param ++ (o.kind.names.map (⟨·, none⟩) ++ py.options)

/-- An operation that is started, with the values of its own parameters and the token that its
overload has built. -/
structure Started (β κ ε ω : Type) where
  op : ω
  values : List β
  token : BoundToken κ ε (Handler β)

/-- The options load, and the token is built around the handler. -/
def Casters.bind_options (py : Casters β κ ε) (convert : Bool) (h : Handler β) :
    List β → Option (BoundToken κ ε (Handler β))
  | [cl, exec, as_tuple] =>
    match py.optional py.slot cl, py.optional (py.executor convert) exec,
      py.bool convert as_tuple with
    | some cl, some exec, some as_tuple => some (bind_token cl exec as_tuple h)
    | _, _, _ => none
  | _ => none

/-- The values behind the operation's own load, and the token is built. -/
def Casters.load_token (py : Casters β κ ε) (convert : Bool) :
    TokenOverload → List β → Option (BoundToken κ ε (Handler β))
  | .callback, func :: options =>
    if py.function func then py.bind_options convert (.callback func) options else none
  -- The parameter of this overload is a `detached_t`, which has no value to keep.
  | .token, token :: options =>
    if py.detached token then py.bind_options convert .detached options else none
  | .awaitable, options => py.bind_options convert .use_awaitable options
  | _, [] => none

/-- An overload is tried: the call is bound to its parameters and the values are loaded. -/
def AsyncOverload.attempt (py : Casters β κ ε) (convert : Bool) (c : Call String β)
    (o : AsyncOverload β ω) : Option (Started β κ ε ω) :=
  match Binding.bind (o.params py) c with
  | none => none
  | some vs =>
    -- The values are in the order of the parameters, the operation's own first.
    if loads_all convert o.own (vs.take o.own.length) then
      (py.load_token convert o.kind (vs.drop o.own.length)).map
        fun token => ⟨o.op, vs.take o.own.length, token⟩
    else none

/-- A call: the overloads in their order, without conversions, then with them. -/
def call_overloads (py : Casters β κ ε) (overloads : List (AsyncOverload β ω)) (c : Call String β) :
    Option (Started β κ ε ω) :=
  Overloads.resolve (fun convert => AsyncOverload.attempt py convert c) overloads

/-- `register_async_op` -/
def register_async_op (op : ω) (own : List (TypedParam β)) : List (AsyncOverload β ω) :=
  [⟨op, own, .callback⟩, ⟨op, own, .token⟩, ⟨op, own, .awaitable⟩]

/-- An operation has one overload of each kind. -/
theorem mem_register_async_op {op : ω} {own : List (TypedParam β)} {o : AsyncOverload β ω} :
    o ∈ register_async_op op own ↔ ∃ kind, o = ⟨op, own, kind⟩ := by
  simp only [register_async_op, List.mem_cons, List.not_mem_nil, or_false]
  constructor
  · rintro (rfl | rfl | rfl) <;> exact ⟨_, rfl⟩
  · rintro ⟨kind, rfl⟩
    cases kind <;> simp

/-- The kind of the overload for a handler. -/
def Handler.kind : Handler β → TokenOverload
  | .callback _ => .callback
  | .detached => .token
  | .use_awaitable => .awaitable

/-- A handler as Python passes it. -/
def Casters.Passes (py : Casters β κ ε) : Handler β → List β → Prop
  | .callback func, front => front = [func] ∧ py.function func = true
  | .detached, front => ∃ v, front = [v] ∧ py.detached v = true
  | .use_awaitable, front => front = []

/-- A handler takes as many arguments as its overload has parameters for it. -/
theorem Casters.Passes.length_eq {py : Casters β κ ε} {h : Handler β} {front : List β}
    (hfront : py.Passes h front) : front.length = h.kind.names.length := by
  cases h with
  | callback func => rw [hfront.1]; rfl
  | detached => obtain ⟨v, rfl, -⟩ := hfront; rfl
  | use_awaitable => rw [show front = [] from hfront]; rfl

/-- The names of the operation's own parameters. -/
def own_names (own : List (TypedParam β)) : List String := own.map fun p => p.param.name

/-- The value that a call gives to the parameter `name` behind the operation's own. -/
def handler_value (own : List (TypedParam β)) (c : Call String β) (name : String) : Option β :=
  (c.args[own.length]?).or (c.kwargs.lookup name)

/-- The value that a call gives to the option `name` at the place `i`: the positional argument, else
the keyword, unless one of the operation's own parameters has the name, else the default. -/
def option_value (own : List (TypedParam β)) (c : Call String β) (i : ℕ) (name : String)
    (default : β) : β :=
  ((c.args[i]?).or (if name ∈ own_names own then none else c.kwargs.lookup name)).getD default

/-- The call asks for the handler: by the argument right behind the operation's own, else by its
keyword. -/
def Casters.AsksFor (py : Casters β κ ε) (own : List (TypedParam β)) (c : Call String β) :
    Handler β → Prop
  | .callback func => handler_value own c "callback" = some func ∧ py.function func = true ∧
      "token" ∉ c.kwargs
  | .detached => (∃ v, handler_value own c "token" = some v ∧ py.detached v = true) ∧
      "callback" ∉ c.kwargs
  | .use_awaitable => "callback" ∉ c.kwargs ∧ "token" ∉ c.kwargs ∧
      ∀ v, c.args[own.length]? = some v → py.is_none v = true ∨ (py.slot v).isSome

/-- The options that the call gives, behind the `i` parameters in front of them. -/
structure Casters.Gives (py : Casters β κ ε) (own : List (TypedParam β)) (c : Call String β) (i : ℕ)
    (cl : Option κ) (exec : Option ε) (as_tuple : Bool) : Prop where
  slot : py.optional py.slot (option_value own c i "cancellation_slot" py.none_) = some cl
  executor : py.optional (py.executor true) (option_value own c (i + 1) "executor" py.none_) =
    some exec
  as_tuple : py.bool true (option_value own c (i + 2) "as_tuple" py.false_) = some as_tuple

/-- The argument right behind the operation's own is not a handler of one kind and a handler of
another kind, or an option, at once. -/
def Casters.Unambiguous (py : Casters β κ ε) (own : List (TypedParam β)) (c : Call String β) :
    Prop :=
  ∀ v, c.args[own.length]? = some v →
    (py.function v = true → py.detached v = false ∧ py.is_none v = false ∧ py.slot v = none) ∧
    (py.detached v = true → py.is_none v = false ∧ py.slot v = none)

/-- What loads as an optional executor without conversions loads so with them. -/
theorem Casters.optional_executor_mono (py : Casters β κ ε) {convert : Bool} {v : β}
    {exec : Option ε} (h : py.optional (py.executor convert) v = some exec) :
    py.optional (py.executor true) v = some exec := by
  cases convert with
  | true => exact h
  | false =>
    unfold Casters.optional at h ⊢
    split_ifs at h ⊢
    · exact h
    · obtain ⟨e, he, rfl⟩ := Option.map_eq_some_iff.mp h
      rw [py.executor_mono v e he]
      rfl

/-- What loads as a `bool` without conversions loads so with them. -/
theorem Casters.bool_mono' (py : Casters β κ ε) {convert : Bool} {v : β} {t : Bool}
    (h : py.bool convert v = some t) : py.bool true v = some t := by
  cases convert with
  | true => exact h
  | false => exact py.bool_mono v t h

/-- The values of the options, where they load. -/
theorem Casters.bind_options_eq_some {py : Casters β κ ε} {convert : Bool} {h : Handler β}
    {vs : List β} {token : BoundToken κ ε (Handler β)}
    (hload : py.bind_options convert h vs = some token) :
    ∃ x y z cl exec as_tuple, vs = [x, y, z] ∧ py.optional py.slot x = some cl ∧
      py.optional (py.executor convert) y = some exec ∧ py.bool convert z = some as_tuple ∧
      token = bind_token cl exec as_tuple h := by
  unfold Casters.bind_options at hload
  split at hload
  · next x y z =>
    split at hload
    · next cl exec as_tuple hx hy hz =>
      exact ⟨x, y, z, cl, exec, as_tuple, rfl, hx, hy, hz, (Option.some.inj hload).symm⟩
    · cases hload
  · cases hload

/-- The options that load without conversions load with them. -/
theorem Casters.bind_options_mono (py : Casters β κ ε) {convert : Bool} {h : Handler β}
    {vs : List β} {token : BoundToken κ ε (Handler β)}
    (hload : py.bind_options convert h vs = some token) :
    py.bind_options true h vs = some token := by
  obtain ⟨x, y, z, cl, exec, as_tuple, rfl, hx, hy, hz, rfl⟩ :=
    Casters.bind_options_eq_some hload
  simp only [Casters.bind_options, hx, py.optional_executor_mono hy, py.bool_mono' hz]

/-- The values behind the operation's own, where they load: a handler, then the options. -/
theorem Casters.load_token_eq_some {py : Casters β κ ε} {convert : Bool} {kind : TokenOverload}
    {vs : List β} {token : BoundToken κ ε (Handler β)}
    (hload : py.load_token convert kind vs = some token) :
    ∃ h : Handler β, ∃ front options, h.kind = kind ∧ vs = front ++ options ∧
      py.bind_options convert h options = some token ∧ py.Passes h front := by
  -- One case for each overload, and one for an overload that lacks its handler.
  unfold Casters.load_token at hload
  split at hload
  · next func options =>
    split_ifs at hload with hfunc
    exact ⟨.callback func, [func], options, rfl, rfl, hload, rfl, hfunc⟩
  · next v options =>
    split_ifs at hload with hv
    exact ⟨.detached, [v], options, rfl, rfl, hload, v, rfl, hv⟩
  · exact ⟨.use_awaitable, [], vs, rfl, rfl, hload, rfl⟩
  · cases hload

/-- What loads without conversions loads with them, as the same token. -/
theorem Casters.load_token_mono (py : Casters β κ ε) {convert : Bool} {kind : TokenOverload}
    {vs : List β} {token : BoundToken κ ε (Handler β)}
    (hload : py.load_token convert kind vs = some token) :
    py.load_token true kind vs = some token := by
  obtain ⟨h, front, options, rfl, rfl, hoptions, hfront⟩ := Casters.load_token_eq_some hload
  have htrue := py.bind_options_mono hoptions
  cases h with
  | callback func =>
    obtain ⟨rfl, hfunc⟩ := hfront
    simpa [Casters.load_token, Handler.kind, hfunc] using htrue
  | detached =>
    obtain ⟨v, rfl, hv⟩ := hfront
    simpa [Casters.load_token, Handler.kind, hv] using htrue
  | use_awaitable =>
    obtain rfl : front = [] := hfront
    simpa [Casters.load_token, Handler.kind] using htrue

/-- An overload that a call is bound to and loads. -/
theorem attempt_eq_some_iff {py : Casters β κ ε} {convert : Bool} {c : Call String β}
    {o : AsyncOverload β ω} {s : Started β κ ε ω} :
    o.attempt py convert c = some s ↔ ∃ vs, Bound (o.params py) c vs ∧
      loads_all convert o.own (vs.take o.own.length) = true ∧
      py.load_token convert o.kind (vs.drop o.own.length) = some s.token ∧
      s.op = o.op ∧ s.values = vs.take o.own.length := by
  unfold AsyncOverload.attempt
  constructor
  · intro h
    split at h
    · cases h
    · next vs hbind =>
      split_ifs at h with hown
      obtain ⟨token, htoken, rfl⟩ := Option.map_eq_some_iff.mp h
      exact ⟨vs, bind_iff.mp hbind, hown, htoken, rfl, rfl⟩
  · rintro ⟨vs, hbound, hown, htoken, hop, hvalues⟩
    rw [bind_iff.mpr hbound]
    simp only [hown, htoken, if_true, Option.map_some, Option.some.injEq]
    rw [← hop, ← hvalues]

/-- The first parameter of an overload that serves a call loads what the call gives to it. -/
theorem attempt_first {py : Casters β κ ε} {convert : Bool} {c : Call String β}
    {o : AsyncOverload β ω} {p : TypedParam β} {own : List (TypedParam β)} {name : String}
    {s : Started β κ ε ω} (hown : o.own = p :: own) (hp : p.param = ⟨name, none⟩)
    (hs : o.attempt py convert c = some s) :
    ∃ v, first_value c name = some v ∧ p.load convert v = true := by
  obtain ⟨vs, hbound, hload, -⟩ := attempt_eq_some_iff.mp hs
  have hlen := hbound.length_eq
  rw [AsyncOverload.params, hown, List.map_cons, hp] at hbound
  have hfirst := first_value_eq hbound
  rcases vs with - | ⟨v, rest⟩
  · simp [AsyncOverload.params, hown] at hlen
  · refine ⟨v, hfirst.symm, ?_⟩
    rw [hown, List.length_cons, List.take_succ_cons, loads_all, List.zip_cons_cons, List.all_cons,
      Bool.and_eq_true] at hload
    exact hload.1

/-- An overload that loads without conversions loads with them, as the same. -/
theorem attempt_mono {py : Casters β κ ε} {convert : Bool} {c : Call String β}
    {o : AsyncOverload β ω} {s : Started β κ ε ω} (h : o.attempt py convert c = some s) :
    o.attempt py true c = some s := by
  obtain ⟨vs, hbound, hown, htoken, hop, hvalues⟩ := attempt_eq_some_iff.mp h
  exact attempt_eq_some_iff.mpr
    ⟨vs, hbound, loads_all_true hown, py.load_token_mono htoken, hop, hvalues⟩

/-- The names of an overload's parameters. -/
theorem names_params (py : Casters β κ ε) (o : AsyncOverload β ω) :
    (o.params py).map Binding.Param.name = own_names o.own ++
      (o.kind.names ++ ["cancellation_slot", "executor", "as_tuple"]) := by
  simp [AsyncOverload.params, own_names, Casters.options, Function.comp_def]

/-- A call that is bound has no keyword but the names of the parameters. -/
theorem notMem_kwargs {py : Casters β κ ε} {o : AsyncOverload β ω} {c : Call String β}
    {vs : List β} (h : Bound (o.params py) c vs) {name : String} (hown : name ∉ own_names o.own)
    (hname : name ∉ o.kind.names ++ ["cancellation_slot", "executor", "as_tuple"]) :
    name ∉ c.kwargs := by
  intro hin
  have hparam := List.map_subset _ (List.drop_subset _ _) (h.named name hin)
  rw [names_params, List.mem_append] at hparam
  exact hparam.elim hown hname

/-- The value of the parameter for the handler. -/
theorem handler_value_eq {py : Casters β κ ε} {o : AsyncOverload β ω} {c : Call String β}
    {vs : List β} (h : Bound (o.params py) c vs) {name : String} (hkind : o.kind.names = [name])
    (hown : name ∉ own_names o.own) : vs[o.own.length]? = handler_value o.own c name := by
  have hlen : (o.own.map TypedParam.param).length = o.own.length := List.length_map _
  have hp : (o.params py)[o.own.length]? = some ⟨name, none⟩ := by
    rw [AsyncOverload.params, List.getElem?_append_right hlen.le, hlen, Nat.sub_self, hkind]
    rfl
  have htake : (o.params py).take o.own.length = o.own.map TypedParam.param := by
    rw [AsyncOverload.params, List.take_left' hlen]
  have hname : name ∉ (o.own.map TypedParam.param).map Binding.Param.name := by
    rwa [List.map_map]
  rw [h.value_eq hp, htake, value, if_neg hname, Option.or_none, handler_value]

/-- The value of an option. -/
theorem option_value_eq {py : Casters β κ ε} {o : AsyncOverload β ω} {c : Call String β}
    {vs : List β} (h : Bound (o.params py) c vs) {k : ℕ} {name : String} {default : β}
    (hk : py.options[k]? = some ⟨name, some default⟩)
    (hbefore : name ∉ o.kind.names ++ (py.options.take k).map Binding.Param.name) :
    vs[o.own.length + o.kind.names.length + k]? =
      some (option_value o.own c (o.own.length + o.kind.names.length + k) name default) := by
  have hsplit : o.params py =
      (o.own.map TypedParam.param ++ o.kind.names.map (⟨·, none⟩)) ++ py.options := by
    rw [AsyncOverload.params, List.append_assoc]
  have hlen : (o.own.map TypedParam.param ++
      o.kind.names.map (⟨·, none⟩ : String → Binding.Param String β)).length =
        o.own.length + o.kind.names.length := by
    simp
  have hp : (o.params py)[o.own.length + o.kind.names.length + k]? =
      some ⟨name, some default⟩ := by
    rw [hsplit, ← hlen, List.getElem?_append_right (Nat.le_add_right _ _),
      Nat.add_sub_cancel_left, hk]
  -- The name is an own parameter's, or no parameter in front of the option has it.
  have hname : name ∈ ((o.params py).take (o.own.length + o.kind.names.length + k)).map
      Binding.Param.name ↔ name ∈ own_names o.own := by
    rw [hsplit, ← hlen, List.take_length_add_append, List.append_assoc, List.map_append,
      List.map_map, List.mem_append]
    refine or_iff_left ?_
    simpa [Function.comp_def] using hbefore
  rw [h.value_eq hp, value, option_value]
  simp only [hname]
  split_ifs <;> rcases c.args[o.own.length + o.kind.names.length + k]? with - | v <;>
    rcases c.kwargs.lookup name with - | w <;> rfl

/-- None of the operation's own parameters has the name of a parameter for the handler. -/
def OwnNamesFree (own : List (TypedParam β)) : Prop :=
  "callback" ∉ own_names own ∧ "token" ∉ own_names own

/-- The values of an overload's options, as the call gives them. -/
theorem options_eq {py : Casters β κ ε} {o : AsyncOverload β ω} {c : Call String β} {vs : List β}
    (h : Bound (o.params py) c vs) {front : List β} {x y z : β}
    (hvs : vs.drop o.own.length = front ++ [x, y, z])
    (hfront : front.length = o.kind.names.length) :
    x = option_value o.own c (o.own.length + o.kind.names.length) "cancellation_slot" py.none_ ∧
      y = option_value o.own c (o.own.length + o.kind.names.length + 1) "executor" py.none_ ∧
      z = option_value o.own c (o.own.length + o.kind.names.length + 2) "as_tuple" py.false_ := by
  -- The options stand behind the own parameters and the handler.
  have hget : ∀ k, vs[o.own.length + o.kind.names.length + k]? = [x, y, z][k]? := fun k => by
    rw [Nat.add_assoc, ← List.getElem?_drop, hvs, ← hfront,
      List.getElem?_append_right (Nat.le_add_right _ _), Nat.add_sub_cancel_left]
  have hkind : ∀ name, name ≠ "callback" → name ≠ "token" → name ∉ o.kind.names := by
    intro name hcallback htoken
    cases o.kind <;> simp [TokenOverload.names, hcallback, htoken]
  have hslot := option_value_eq (k := 0) h rfl (by
    simpa using hkind "cancellation_slot" (by decide) (by decide))
  have hexec := option_value_eq (k := 1) h rfl (by
    simpa [Casters.options] using hkind "executor" (by decide) (by decide))
  have htuple := option_value_eq (k := 2) h rfl (by
    simpa [Casters.options] using hkind "as_tuple" (by decide) (by decide))
  rw [hget] at hslot hexec htuple
  exact ⟨by simpa using hslot, by simpa using hexec, by simpa using htuple⟩

/-- **What an overload serves.** A call that an overload of an operation loads asks for a handler of
the overload's kind, and the token is built of that handler and the options that the call gives. -/
theorem attempt_asks {py : Casters β κ ε} {convert : Bool} {c : Call String β}
    {o : AsyncOverload β ω} {s : Started β κ ε ω} (hfree : OwnNamesFree o.own)
    (hs : o.attempt py convert c = some s) :
    s.op = o.op ∧ ∃ h cl exec as_tuple, h.kind = o.kind ∧ py.AsksFor o.own c h ∧
      py.Gives o.own c (o.own.length + h.kind.names.length) cl exec as_tuple ∧
      s.token = bind_token cl exec as_tuple h := by
  obtain ⟨vs, hbound, -, htoken, hop, -⟩ := attempt_eq_some_iff.mp hs
  obtain ⟨h, front, options, hkind, hvs, hoptions, hfront⟩ := Casters.load_token_eq_some htoken
  obtain ⟨x, y, z, cl, exec, as_tuple, rfl, hx, hy, hz, hs'⟩ :=
    Casters.bind_options_eq_some hoptions
  have hlen : front.length = o.kind.names.length := by
    rw [← hkind, hfront.length_eq]
  -- The first value behind the operation's own is the handler, or the first option.
  have hfirst : vs[o.own.length]? = (front ++ [x, y, z])[0]? := by
    rw [← hvs, List.getElem?_drop, Nat.add_zero]
  refine ⟨hop, h, cl, exec, as_tuple, hkind, ?_, ?_, hs'⟩
  · cases h with
    | callback func =>
      obtain ⟨rfl, hfunc⟩ := hfront
      have hnames : o.kind.names = ["callback"] := by rw [← hkind]; rfl
      refine ⟨?_, hfunc, notMem_kwargs hbound hfree.2 (by rw [hnames]; decide)⟩
      rw [← handler_value_eq hbound hnames hfree.1, hfirst]
      rfl
    | detached =>
      obtain ⟨v, rfl, hv⟩ := hfront
      have hnames : o.kind.names = ["token"] := by rw [← hkind]; rfl
      refine ⟨⟨v, ?_, hv⟩, notMem_kwargs hbound hfree.1 (by rw [hnames]; decide)⟩
      rw [← handler_value_eq hbound hnames hfree.2, hfirst]
      rfl
    | use_awaitable =>
      obtain rfl : front = [] := hfront
      have hnames : o.kind.names = [] := by rw [← hkind]; rfl
      refine ⟨notMem_kwargs hbound hfree.1 (by rw [hnames]; decide),
        notMem_kwargs hbound hfree.2 (by rw [hnames]; decide), fun v hv => ?_⟩
      -- What stands in the handler's place has been loaded as the slot.
      have hplace := hbound.positional _ (List.getElem?_eq_some_iff.mp hv).1
      obtain rfl : x = v := by
        rw [hfirst, hv] at hplace
        simpa using hplace
      unfold Casters.optional at hx
      split_ifs at hx with hnone
      · exact Or.inl hnone
      · obtain ⟨e, he, -⟩ := Option.map_eq_some_iff.mp hx
        exact Or.inr (by rw [he]; rfl)
  · obtain ⟨hx', hy', hz'⟩ := options_eq hbound hvs hlen
    rw [hx'] at hx
    rw [hy'] at hy
    rw [hz'] at hz
    rw [hkind]
    exact ⟨hx, py.optional_executor_mono hy, py.bool_mono' hz⟩

/-- Where an overload serves a call, and no value but the default reaches the option `executor`, no
executor is bound to the token. -/
theorem not_bound_of_option {py : Casters β κ ε} {convert : Bool} {c : Call String β}
    {o : AsyncOverload β ω} {s : Started β κ ε ω} (hfree : OwnNamesFree o.own)
    (hs : o.attempt py convert c = some s)
    (hoption : py.optional (py.executor true) (option_value o.own c
      (o.own.length + o.kind.names.length + 1) "executor" py.none_) = some none) :
    ∀ b ∈ s.token.bound, ∃ cl, b = .inl cl := by
  obtain ⟨-, h, cl, exec, as_tuple, hkind, -, hgives, htoken⟩ := attempt_asks hfree hs
  -- What the token is bound to besides is the slot.
  obtain rfl : none = exec := by
    rw [← hkind, hgives.executor] at hoption
    exact (Option.some.inj hoption).symm
  rw [htoken, bound_bind_token]
  intro b hb
  obtain ⟨cl', -, rfl⟩ : ∃ cl', cl = some cl' ∧ .inl cl' = b := by simpa using hb
  exact ⟨cl', rfl⟩

/-- A call that is unambiguous asks for one handler. -/
theorem Casters.AsksFor.unique {py : Casters β κ ε} {own : List (TypedParam β)} {c : Call String β}
    (hun : py.Unambiguous own c) {h h' : Handler β} (hh : py.AsksFor own c h)
    (hh' : py.AsksFor own c h') : h = h' := by
  -- A handler is given by position, or by a keyword that the others exclude.
  have hplace : ∀ {name v}, handler_value own c name = some v →
      c.args[own.length]? = some v ∨ name ∈ c.kwargs := by
    intro name v hv
    rcases Option.or_eq_some_iff.mp hv with harg | ⟨-, hkw⟩
    · exact Or.inl harg
    · exact Or.inr (AList.lookup_isSome.mp (by rw [hkw]; rfl))
  have hcallback : ∀ {func h'}, py.AsksFor own c (.callback func) → py.AsksFor own c h' →
      h' = .callback func := by
    intro func h' hfunc hh'
    obtain ⟨hv, hfunc, htoken⟩ := hfunc
    cases h' with
    | callback func' => rw [Option.some.inj (hv.symm.trans hh'.1)]
    | detached =>
      obtain ⟨⟨v', hv', hdet⟩, hnot⟩ := hh'
      have harg := (hplace hv).resolve_right hnot
      have harg' := (hplace hv').resolve_right htoken
      obtain rfl := Option.some.inj (harg.symm.trans harg')
      rw [((hun _ harg).1 hfunc).1] at hdet
      cases hdet
    | use_awaitable =>
      obtain ⟨hnot, -, hslot⟩ := hh'
      have harg := (hplace hv).resolve_right hnot
      obtain ⟨-, hnone, hno⟩ := (hun _ harg).1 hfunc
      rcases hslot _ harg with h | h
      · rw [hnone] at h
        cases h
      · rw [hno] at h
        cases h
  have hdetached : ∀ {h'}, py.AsksFor own c .detached → py.AsksFor own c h' →
      h' = .detached ∨ ∃ func, h' = .callback func := by
    intro h' hdet hh'
    obtain ⟨⟨v, hv, hdet⟩, -⟩ := hdet
    cases h' with
    | callback func => exact Or.inr ⟨func, rfl⟩
    | detached => exact Or.inl rfl
    | use_awaitable =>
      obtain ⟨-, hnot, hslot⟩ := hh'
      have harg := (hplace hv).resolve_right hnot
      obtain ⟨hnone, hno⟩ := (hun _ harg).2 hdet
      rcases hslot _ harg with h | h
      · rw [hnone] at h
        cases h
      · rw [hno] at h
        cases h
  -- The cases are symmetric in the two handlers.
  cases h with
  | callback func => exact (hcallback hh hh').symm
  | detached =>
    rcases hdetached hh hh' with rfl | ⟨func, rfl⟩
    · rfl
    · exact hcallback hh' hh
  | use_awaitable =>
    cases h' with
    | callback func => exact hcallback hh' hh
    | detached =>
      rcases hdetached hh' hh with h | ⟨func, h⟩
      · exact h
      · cases h
    | use_awaitable => rfl

/-- The overloads of an operation that load an unambiguous call are one. -/
theorem overload_unique {py : Casters β κ ε} {op : ω} {own : List (TypedParam β)}
    {c : Call String β} (hfree : OwnNamesFree own) (hun : py.Unambiguous own c)
    (convert convert' : Bool) :
    ∀ o ∈ register_async_op op own, ∀ o' ∈ register_async_op op own,
      (o.attempt py convert c).isSome → (o'.attempt py convert' c).isSome → o = o' := by
  intro o ho o' ho' hs hs'
  obtain ⟨kind, rfl⟩ := mem_register_async_op.mp ho
  obtain ⟨kind', rfl⟩ := mem_register_async_op.mp ho'
  obtain ⟨s, hs⟩ := Option.isSome_iff_exists.mp hs
  obtain ⟨s', hs'⟩ := Option.isSome_iff_exists.mp hs'
  obtain ⟨-, h, -, -, -, hkind, hasks, -⟩ := attempt_asks hfree hs
  obtain ⟨-, h', -, -, -, hkind', hasks', -⟩ := attempt_asks hfree hs'
  obtain rfl := hasks.unique hun hasks'
  rw [show kind = kind' from hkind.symm.trans hkind']

/-- **The overloads of an operation.** For an unambiguous call, the order in which they are defined
does not matter, nor do the two passes: what loads the call with conversions serves it. -/
theorem async_op_dispatch_eq {py : Casters β κ ε} {op : ω} {own : List (TypedParam β)}
    {c : Call String β} {overloads : List (AsyncOverload β ω)}
    (horder : overloads.Perm (register_async_op op own)) (hfree : OwnNamesFree own)
    (hun : py.Unambiguous own c) {s : Started β κ ε ω} :
    call_overloads py overloads c = some s ↔
      ∃ o ∈ register_async_op op own, o.attempt py true c = some s := by
  have hunique : ∀ o ∈ overloads, ∀ o' ∈ overloads,
      (o.attempt py true c).isSome → (o'.attempt py true c).isSome → o = o' :=
    fun o ho o' ho' =>
      overload_unique hfree hun true true o (horder.mem_iff.mp ho) o' (horder.mem_iff.mp ho')
  have hserved : call_overloads py overloads c = some s ↔
      ∃ o ∈ overloads, o.attempt py true c = some s :=
    Overloads.resolve_eq_some_iff_of_unique (fun _ _ _ hs => attempt_mono hs) hunique
  rw [hserved]
  simp only [horder.mem_iff]

/-- **What a call asks for.** A call of an operation that is served starts the operation with a
token around the handler that the call asks for: the argument right behind the operation's own, or
the one with the keyword. The options are the arguments behind that, or those with their keywords;
a keyword that is the name of one of the operation's own parameters never reaches the option. -/
theorem async_op_call {py : Casters β κ ε} {op : ω} {own : List (TypedParam β)} {c : Call String β}
    {overloads : List (AsyncOverload β ω)} (horder : overloads.Perm (register_async_op op own))
    (hfree : OwnNamesFree own) (hun : py.Unambiguous own c) {s : Started β κ ε ω}
    (hs : call_overloads py overloads c = some s) :
    s.op = op ∧ ∃ h cl exec as_tuple, py.AsksFor own c h ∧
      (∀ h', py.AsksFor own c h' → h' = h) ∧
      py.Gives own c (own.length + h.kind.names.length) cl exec as_tuple ∧
      s.token = bind_token cl exec as_tuple h := by
  obtain ⟨o, ho, hs⟩ := (async_op_dispatch_eq horder hfree hun).mp hs
  obtain ⟨kind, rfl⟩ := mem_register_async_op.mp ho
  obtain ⟨hop, h, cl, exec, as_tuple, -, hasks, hgives, htoken⟩ := attempt_asks hfree hs
  exact ⟨hop, h, cl, exec, as_tuple, hasks, fun h' hh' => hh'.unique hun hasks, hgives, htoken⟩

/-- Python objects of a call. -/
inductive SampleObject where
  | none_
  | bool (b : Bool)
  | func
  | detached
  | slot
  | executor
  /-- An executor of another class, which converts to `any_io_executor`. -/
  | strand
  | wrapper
  | io_context
  | timedelta
  /-- A `steady_timer` or a `system_timer`. -/
  | timer (steady : Bool)
  deriving DecidableEq

/-- pybind11's casters on these objects. -/
def sample_casters : Casters SampleObject Unit SampleObject where
  is_none v := v = .none_
  function v := v = .func
  detached v := v = .detached
  slot v := if v = .slot then some () else none
  executor convert v := if v = .executor ∨ convert = true ∧ v = .strand then some v else none
  bool _ v := match v with
    | .bool b => some b
    | _ => none
  none_ := .none_
  false_ := .bool false
  is_none_none := rfl
  bool_false _ := rfl
  executor_mono v e h := by simp_all
  bool_mono _ _ h := h

/-- A parameter of an operation that takes an executor. -/
def sample_own : TypedParam SampleObject := sample_casters.executor_param "ex"

/-- The keyword `as_tuple=True`. -/
def as_tuple_keyword : AList fun _ : String => SampleObject :=
  AList.insert "as_tuple" (.bool true) ∅

/-- A strand has to be converted, and the function behind it is the handler. -/
theorem async_op_call_strand : ∃ h cl exec as_tuple,
    sample_casters.AsksFor [sample_own] ⟨[.strand, .func], as_tuple_keyword⟩ h ∧
      sample_casters.Gives [sample_own] ⟨[.strand, .func], as_tuple_keyword⟩
        (1 + h.kind.names.length) cl exec as_tuple ∧
      bind_token none none true (.callback .func) = bind_token cl exec as_tuple h := by
  have hs : call_overloads sample_casters (register_async_op () [sample_own])
      ⟨[.strand, .func], as_tuple_keyword⟩ =
        some ⟨(), [.strand], bind_token none none true (.callback .func)⟩ := rfl
  have hfree : OwnNamesFree [sample_own] := by
    simp [OwnNamesFree, own_names, sample_own, Casters.executor_param]
  have hun : sample_casters.Unambiguous [sample_own] ⟨[.strand, .func], as_tuple_keyword⟩ := by
    intro v hv
    obtain rfl : SampleObject.func = v := Option.some.inj hv
    simp [sample_casters]
  obtain ⟨-, h, cl, exec, as_tuple, hasks, -, hgives, htoken⟩ :=
    async_op_call (List.Perm.refl _) hfree hun hs
  exact ⟨h, cl, exec, as_tuple, hasks, hgives, htoken⟩

/-- The names of the parameters behind the operation's own. -/
def Handler.names (h : Handler β) : List String :=
  h.kind.names ++ ["cancellation_slot", "executor", "as_tuple"]

/-- None of the operation's own parameters has the name of an option. -/
def OptionNamesFree (own : List (TypedParam β)) : Prop :=
  ∀ name ∈ ["cancellation_slot", "executor", "as_tuple"], name ∉ own_names own

/-- An overload serves a call that is bound to a handler of its kind and to options that load. -/
theorem attempt_of_passes {py : Casters β κ ε} {convert : Bool} {op : ω} {own : List (TypedParam β)}
    {c : Call String β} {values front : List β} {h : Handler β} {x y z : β} {cl : Option κ}
    {exec : Option ε} {as_tuple : Bool} (hlen : values.length = own.length)
    (hown : loads_all convert own values = true) (hfront : py.Passes h front)
    (hx : py.optional py.slot x = some cl) (hy : py.optional (py.executor convert) y = some exec)
    (hz : py.bool convert z = some as_tuple)
    (hbound : Bound (AsyncOverload.params py (⟨op, own, h.kind⟩ : AsyncOverload β ω)) c
      (values ++ (front ++ [x, y, z]))) :
    AsyncOverload.attempt py convert c ⟨op, own, h.kind⟩ =
      some ⟨op, values, bind_token cl exec as_tuple h⟩ := by
  refine attempt_eq_some_iff.mpr ⟨_, hbound, ?_, ?_, rfl, ?_⟩
  · rw [← hlen, List.take_left]
    exact hown
  · rw [← hlen, List.drop_left]
    have hoptions : py.bind_options convert h [x, y, z] = some (bind_token cl exec as_tuple h) := by
      simp only [Casters.bind_options, hx, hy, hz]
    cases h with
    | callback func =>
      obtain ⟨rfl, hfunc⟩ := hfront
      simpa [Casters.load_token, Handler.kind, hfunc] using hoptions
    | detached =>
      obtain ⟨v, rfl, hv⟩ := hfront
      simpa [Casters.load_token, Handler.kind, hv] using hoptions
    | use_awaitable =>
      obtain rfl : front = [] := hfront
      simpa [Casters.load_token, Handler.kind] using hoptions
  · rw [← hlen, List.take_left]

/-- **Everything can be asked for.** Let the operation's own arguments load, and let a handler and
the options be given that load. The call that gives them all by position, if it is unambiguous,
starts the operation with the token of that handler and those options; and so does the call that
gives the handler and the options by keyword, if the operation's own parameters do not have these
names. -/
theorem async_op_round_trip {py : Casters β κ ε} {op : ω} {own : List (TypedParam β)}
    {values front : List β} {h : Handler β} {x y z : β} {cl : Option κ} {exec : Option ε}
    {as_tuple : Bool} (hfree : OwnNamesFree own) (hlen : values.length = own.length)
    (hown : loads_all true own values = true) (hfront : py.Passes h front)
    (hx : py.optional py.slot x = some cl) (hy : py.optional (py.executor true) y = some exec)
    (hz : py.bool true z = some as_tuple) :
    (py.Unambiguous own ⟨values ++ (front ++ [x, y, z]), ∅⟩ →
      call_overloads py (register_async_op op own) ⟨values ++ (front ++ [x, y, z]), ∅⟩ =
        some ⟨op, values, bind_token cl exec as_tuple h⟩) ∧
      (OptionNamesFree own →
        call_overloads py (register_async_op op own)
            ⟨values, keywords h.names (front ++ [x, y, z])⟩ =
          some ⟨op, values, bind_token cl exec as_tuple h⟩) := by
  -- Both calls are bound to the same values.
  have hserved : ∀ c, py.Unambiguous own c →
      Bound (AsyncOverload.params py (⟨op, own, h.kind⟩ : AsyncOverload β ω)) c
        (values ++ (front ++ [x, y, z])) →
      call_overloads py (register_async_op op own) c =
        some ⟨op, values, bind_token cl exec as_tuple h⟩ := by
    intro c hun hbound
    exact (async_op_dispatch_eq (List.Perm.refl _) hfree hun).mpr ⟨⟨op, own, h.kind⟩,
      mem_register_async_op.mpr ⟨h.kind, rfl⟩, attempt_of_passes hlen hown hfront hx hy hz hbound⟩
  have hfrontlen := hfront.length_eq
  constructor
  · intro hun
    refine hserved _ hun (bound_positional ?_)
    simp [AsyncOverload.params, Casters.options, hlen, hfrontlen]
  · intro hoptions
    have hnames : (h.kind.names.map (⟨·, none⟩ : String → Binding.Param String β) ++
        py.options).map Binding.Param.name = h.names := by
      simp [Handler.names, Casters.options, Function.comp_def]
    refine hserved _ ?_ ?_
    · -- Nothing is given in the handler's place.
      intro v hv
      rw [show Call.args ⟨values, _⟩ = values from rfl, ← hlen,
        List.getElem?_eq_none le_rfl] at hv
      cases hv
    · show Bound (own.map TypedParam.param ++ (h.kind.names.map (⟨·, none⟩) ++ py.options))
        ⟨values, keywords h.names (front ++ [x, y, z])⟩ _
      rw [← hnames]
      refine bound_keywords (by rw [hlen, List.length_map]) ?_ ?_ ?_
      · simp [Casters.options, hfrontlen]
      · rw [hnames]
        cases h <;> simp [Handler.names, Handler.kind, TokenOverload.names]
      · rw [hnames, List.map_map]
        intro n hn
        rcases List.mem_append.mp hn with hn | hn
        · cases h with
          | callback func =>
            rw [List.mem_singleton.mp hn]
            exact hfree.1
          | detached =>
            rw [List.mem_singleton.mp hn]
            exact hfree.2
          | use_awaitable => cases hn
        · exact hoptions n hn

/-- A detached operation, with a slot and as a tuple, asked for in both ways. -/
theorem async_op_round_trip_detached :
    call_overloads sample_casters (register_async_op () [sample_own])
        ⟨[.strand, .detached, .slot, .none_, .bool true], ∅⟩ =
      some ⟨(), [.strand], bind_token (some ()) none true .detached⟩ ∧
    call_overloads sample_casters (register_async_op () [sample_own])
        ⟨[.strand], keywords ["token", "cancellation_slot", "executor", "as_tuple"]
          [.detached, .slot, .none_, .bool true]⟩ =
      some ⟨(), [.strand], bind_token (some ()) none true .detached⟩ := by
  have hfree : OwnNamesFree [sample_own] := by
    simp [OwnNamesFree, own_names, sample_own, Casters.executor_param]
  have hfront : sample_casters.Passes .detached [.detached] := ⟨_, rfl, rfl⟩
  have hx : sample_casters.optional sample_casters.slot .slot = some (some ()) := rfl
  have hy : sample_casters.optional (sample_casters.executor true) .none_ = some none := rfl
  have hz : sample_casters.bool true (.bool true) = some true := rfl
  have hown : loads_all true [sample_own] [.strand] = true := rfl
  obtain ⟨hpositional, hkeywords⟩ := @async_op_round_trip _ _ _ _ _ () _ _ _ _ _ _ _ _ _ _
    hfree rfl hown hfront hx hy hz
  have hoptions : OptionNamesFree [sample_own] := by
    simp [OptionNamesFree, own_names, sample_own, Casters.executor_param]
  refine ⟨hpositional ?_, hkeywords hoptions⟩
  intro v hv
  obtain rfl : SampleObject.detached = v := Option.some.inj hv
  simp [sample_casters]

end AsioPy
