import AsioPy.FunctionCall
import AsioPy.Read

/-!
# Which overload of a read gets an `error_code`

`register_read` defines `read_some`, `read` and `read_until` twice each: without and with a
parameter `ec`, which stands in front of `type`. The overload without it comes first, and its
parameter `type` takes every Python object. So an `error_code` that is passed by position is taken
as the type of the object to read, unless the other arguments make the first overload refuse the
call; the read then throws a `TypeError`, and neither the stream nor the `error_code` is touched.

`read_error_code_iff` says which calls these are.
-/

namespace AsioPy

open Binding

variable {β : Type}

/-- pybind11's casters for the arguments of a read. -/
structure ReadCasters (β : Type) where
  /-- The stream class. -/
  stream : β → Bool
  /-- `asio::error_code &`, to which the enumerations of errors may be converted. -/
  error_code : Bool → β → Bool
  /-- `asio::string_view` -/
  string_view : β → Option (List UInt8)
  /-- `std::size_t`, which converts if it is set. -/
  size : Bool → β → Option ℕ
  /-- What the functions see of the argument `type`. -/
  type_arg : β → TypeArg
  /-- `py::type::of(py::bytes())`, the default of `type`. -/
  bytes_ : β
  /-- `PIPE_BUF`, the default of `size`. -/
  pipe_buf : β
  error_code_mono : ∀ v, error_code false v = true → error_code true v = true
  size_mono : ∀ v n, size false v = some n → size true v = some n
  size_pipe_buf : (size false pipe_buf).isSome = true
  /-- An `error_code` is no type object. -/
  error_code_type : ∀ v, error_code false v = true → ∃ tp_name, type_arg v = .not_a_type tp_name

/-- The blocking functions of `register_read`. -/
inductive ReadFunction where
  | read_some
  | read
  | read_until
  deriving DecidableEq

/-- The parameters in front of `ec`. -/
def ReadFunction.front (py : ReadCasters β) : ReadFunction → List (TypedParam β)
  | .read_some => [class_param "self" py.stream]
  | .read => [class_param "s" py.stream]
  | .read_until =>
    [class_param "s" py.stream, class_param "delim" fun v => (py.string_view v).isSome]

/-- The parameter `ec`. -/
def ReadCasters.ec_param (py : ReadCasters β) : TypedParam β where
  param := ⟨"ec", none⟩
  load := py.error_code
  load_mono := py.error_code_mono

/-- The parameter `type`, a `py::object`. -/
def ReadCasters.type_param (py : ReadCasters β) : TypedParam β where
  param := ⟨"type", some py.bytes_⟩
  load _ _ := true
  load_mono _ h := h

/-- The parameter `size`. -/
def ReadCasters.size_param (py : ReadCasters β) : TypedParam β where
  param := ⟨"size", some py.pipe_buf⟩
  load convert v := (py.size convert v).isSome
  load_mono v h := by
    obtain ⟨n, hn⟩ := Option.isSome_iff_exists.mp h
    rw [py.size_mono v n hn]
    rfl

/-- The parameters behind `type`. -/
def ReadFunction.back (py : ReadCasters β) : ReadFunction → List (TypedParam β)
  | .read_some | .read => [py.size_param]
  | .read_until => []

/-- A size at most is behind `type`. -/
theorem ReadFunction.back_eq (py : ReadCasters β) (f : ReadFunction) :
    f.back py = [] ∨ f.back py = [py.size_param] := by
  cases f <;> simp [ReadFunction.back]

/-- An overload of a function: without or with the parameter `ec`. -/
structure ReadOverload where
  function : ReadFunction
  ec : Bool
  deriving DecidableEq

/-- The parameters of an overload. -/
def ReadOverload.params (py : ReadCasters β) (o : ReadOverload) : List (TypedParam β) :=
  o.function.front py ++
    ((if o.ec then [py.ec_param] else []) ++ py.type_param :: o.function.back py)

/-- An overload is called with the values of its parameters, on the stream `p`. -/
def ReadOverload.run (py : ReadCasters β) (o : ReadOverload) (values : List β) (p : Stream) :
    Option Outcome :=
  -- With `ec`, the value in front of the type is the `error_code`, which only the caller reads.
  match o, values with
  | ⟨.read_some, false⟩, [_, b, sz] =>
    (py.size true sz).map fun n => AsioPy.read_some p (py.type_arg b) n
  | ⟨.read_some, true⟩, [_, _, b, sz] =>
    (py.size true sz).map fun n => read_some_ec p (py.type_arg b) n
  | ⟨.read, false⟩, [_, b, sz] =>
    (py.size true sz).map fun n => AsioPy.read p (py.type_arg b) n
  | ⟨.read, true⟩, [_, _, b, sz] =>
    (py.size true sz).map fun n => read_ec p (py.type_arg b) n
  | ⟨.read_until, false⟩, [_, delim, b] =>
    (py.string_view delim).map fun d => AsioPy.read_until p d (py.type_arg b)
  | ⟨.read_until, true⟩, [_, delim, _, b] =>
    (py.string_view delim).map fun d => read_until_ec p d (py.type_arg b)
  | _, _ => none

/-- The overloads of a function, in their order. -/
def register_read (f : ReadFunction) : List ReadOverload := [⟨f, false⟩, ⟨f, true⟩]

/-- An overload is tried. -/
def ReadOverload.attempt (py : ReadCasters β) (convert : Bool) (c : Call String β)
    (o : ReadOverload) : Option (ReadOverload × List β) :=
  (load_call convert (o.params py) c).map fun vs => (o, vs)

/-- A call of a function: the overload that serves it, and the values of its parameters. -/
def call_read (py : ReadCasters β) (f : ReadFunction) (c : Call String β) :
    Option (ReadOverload × List β) :=
  Overloads.resolve (fun convert => ReadOverload.attempt py convert c) (register_read f)

/-- The value that a call gives to the parameter `ec`: by position or by keyword. -/
def ReadFunction.ec_value (py : ReadCasters β) (f : ReadFunction) (c : Call String β) : Option β :=
  (c.args[(f.front py).length]?).or (c.kwargs.lookup "ec")

/-- The overload without `ec` takes the argument at the place of `ec` for the type. -/
structure TakenAsType (py : ReadCasters β) (f : ReadFunction) (c : Call String β) : Prop where
  /-- The argument is given by position. -/
  positional : (f.front py).length < c.args.length
  /-- There are no more arguments than the overload has parameters. -/
  length_le : c.args.length ≤ (f.front py).length + 1 + (f.back py).length
  /-- The type is not given by keyword. -/
  no_type : "type" ∉ c.kwargs
  /-- An argument behind it is a size without conversions, which no keyword gives. -/
  size : ∀ w, c.args[(f.front py).length + 1]? = some w →
    (py.size false w).isSome = true ∧ "size" ∉ c.kwargs

/-- The parameters in front of `ec` load the same in both passes. -/
theorem ReadFunction.loads_front (py : ReadCasters β) (f : ReadFunction) (convert : Bool)
    (xs : List β) : loads_all convert (f.front py) xs = loads_all false (f.front py) xs := by
  rcases xs with - | ⟨x, - | ⟨y, ys⟩⟩ <;> cases f <;> rfl

/-- The arguments `xs` load for the parameters in front of `ec`. -/
def ReadFunction.LoadsFront (py : ReadCasters β) (f : ReadFunction) (xs : List β)
    (kw : AList fun _ : String => β) : Prop :=
  (∀ p ∈ f.front py, p.param.name ∉ kw) ∧ loads_all false (f.front py) xs = true

section

variable {py : ReadCasters β} {f : ReadFunction} {convert : Bool} {xs tail vs : List β} {v : β}
  {kw : AList fun _ : String => β}

/-- The overload without `ec` takes the argument behind `xs` for the type. -/
theorem load_plain_iff (hxs : xs.length = (f.front py).length) :
    load_call convert (ReadOverload.params py ⟨f, false⟩) ⟨xs ++ v :: tail, kw⟩ = some vs ↔
      f.LoadsFront py xs kw ∧ "type" ∉ kw ∧
        ∃ ws, load_call convert (f.back py) ⟨tail, kw⟩ = some ws ∧ vs = xs ++ v :: ws := by
  show load_call convert (f.front py ++ py.type_param :: f.back py) _ = some vs ↔ _
  rw [load_call_append hxs, f.loads_front, ReadFunction.LoadsFront, and_assoc]
  simp only [load_call_cons]
  constructor
  · rintro ⟨hnames, hload, _, ⟨htype, -, ws, hws, rfl⟩, rfl⟩
    exact ⟨hnames, hload, htype, ws, hws, rfl⟩
  · rintro ⟨hnames, hload, htype, ws, hws, rfl⟩
    exact ⟨hnames, hload, _, ⟨htype, rfl, ws, hws, rfl⟩, rfl⟩

/-- The overload with `ec` takes it for the `error_code`. -/
theorem load_ec_iff (hxs : xs.length = (f.front py).length) :
    load_call convert (ReadOverload.params py ⟨f, true⟩) ⟨xs ++ v :: tail, kw⟩ = some vs ↔
      f.LoadsFront py xs kw ∧ "ec" ∉ kw ∧ py.error_code convert v = true ∧
        ∃ ws, load_call convert (py.type_param :: f.back py) ⟨tail, kw⟩ = some ws ∧
          vs = xs ++ v :: ws := by
  show load_call convert (f.front py ++ py.ec_param :: py.type_param :: f.back py) _ = some vs ↔ _
  rw [load_call_append hxs, f.loads_front, ReadFunction.LoadsFront, and_assoc]
  simp only [@load_call_cons _ convert py.ec_param]
  constructor
  · rintro ⟨hnames, hload, _, ⟨hec, hv, ws, hws, rfl⟩, rfl⟩
    exact ⟨hnames, hload, hec, hv, ws, hws, rfl⟩
  · rintro ⟨hnames, hload, hec, hv, ws, hws, rfl⟩
    exact ⟨hnames, hload, _, ⟨hec, hv, ws, hws, rfl⟩, rfl⟩

/-- What is behind the type in a call that the overload without `ec` serves: one size at most. -/
theorem back_cases {ws : List β} (h : load_call convert (f.back py) ⟨tail, kw⟩ = some ws) :
    tail = [] ∨ ∃ w, tail = [w] ∧ f.back py = [py.size_param] ∧ "size" ∉ kw ∧ kw.keys = [] ∧
      (py.size convert w).isSome = true := by
  rcases tail with - | ⟨w, tail⟩
  · exact Or.inl rfl
  · rcases f.back_eq py with hback | hback <;> rw [hback] at h
    · exact absurd (load_call_nil.mp h).1 (List.cons_ne_nil w tail)
    · obtain ⟨hsize, hw, us, hus, -⟩ := load_call_cons.mp h
      obtain ⟨rfl, hkeys, -⟩ := load_call_nil.mp hus
      exact Or.inr ⟨w, rfl, hback, hsize, hkeys, hw⟩

/-- Where the overload without `ec` serves a call with conversions only, no argument behind the type
is the reason, since the other overload would take that one for the type, and the default for the
size. -/
theorem size_of_load_back {ws : List β}
    (h : load_call convert (f.back py) ⟨tail, kw⟩ = some ws)
    (hrefused : convert = true → "ec" ∉ kw →
      load_call false (py.type_param :: f.back py) ⟨tail, kw⟩ = none) :
    ∀ w, tail[0]? = some w → (py.size false w).isSome = true ∧ "size" ∉ kw := by
  intro w hw
  rcases back_cases h with rfl | ⟨w', rfl, hback, hsize, hkeys, hloads⟩
  · cases hw
  · obtain rfl : w' = w := Option.some.inj hw
    refine ⟨?_, hsize⟩
    cases convert with
    | false => exact hloads
    | true =>
      -- The other overload would have served the call in the first pass.
      have hfree : ∀ name, name ∉ kw := fun name hin => by
        have hkey := AList.mem_keys.mp hin
        rw [hkeys] at hkey
        cases hkey
      have hdefault : load_call false (f.back py) ⟨[], kw⟩ = some [py.pipe_buf] := by
        rw [hback]
        exact (load_call_default hsize).mpr
          ⟨py.pipe_buf, [], rfl, py.size_pipe_buf, load_call_nil.mpr ⟨rfl, hkeys, rfl⟩, rfl⟩
      have hserved : load_call false (py.type_param :: f.back py) ⟨[w'], kw⟩ =
          some [w', py.pipe_buf] :=
        load_call_cons.mpr ⟨hfree "type", rfl, _, hdefault, rfl⟩
      rw [hrefused rfl (hfree "ec")] at hserved
      cases hserved

/-- Where the type is given neither by position nor by keyword, or a size could be in its place, the
call is served without `ec` as well. -/
theorem load_back_of_type {us : List β}
    (h : load_call convert (py.type_param :: f.back py) ⟨tail, kw⟩ = some us)
    (hlen : tail.length ≤ (f.back py).length) (htype : "type" ∉ kw)
    (hsize : ∀ w, tail[0]? = some w → (py.size false w).isSome = true ∧ "size" ∉ kw) :
    ∃ ws, load_call convert (f.back py) ⟨tail, kw⟩ = some ws := by
  rcases tail with - | ⟨w, tail⟩
  · -- The type has its default, and the rest is what it is without `ec`.
    obtain ⟨-, ws, -, -, hws, -⟩ := (load_call_default htype).mp h
    exact ⟨ws, hws⟩
  · -- What was taken for the type is the size.
    obtain ⟨hw, hnot⟩ := hsize w rfl
    obtain ⟨-, -, ws, hws, -⟩ := load_call_cons.mp h
    rcases f.back_eq py with hback | hback <;> rw [hback] at hlen hws ⊢
    · cases hlen
    · obtain rfl : tail = [] := by
        rw [List.length_cons, List.length_singleton] at hlen
        exact List.length_eq_zero_iff.mp (by omega)
      obtain ⟨d, us, -, -, hus, -⟩ := (load_call_default hnot).mp hws
      obtain ⟨-, hkeys, -⟩ := load_call_nil.mp hus
      exact ⟨[w], load_call_cons.mpr
        ⟨hnot, py.size_param.loads_of_false hw, [], load_call_nil.mpr ⟨rfl, hkeys, rfl⟩, rfl⟩⟩

end

/-- A call that is served: by the overload without `ec`, or by the other one where the first refuses
it in the same pass; and in the second pass only if both refuse it in the first. -/
theorem call_read_cases {py : ReadCasters β} {f : ReadFunction} {c : Call String β}
    {o : ReadOverload} {vs : List β} (hs : call_read py f c = some (o, vs)) :
    ∃ convert, load_call convert (o.params py) c = some vs ∧
      (o = ⟨f, false⟩ ∨
        o = ⟨f, true⟩ ∧ load_call convert (ReadOverload.params py ⟨f, false⟩) c = none) ∧
      (convert = true → load_call false (ReadOverload.params py ⟨f, true⟩) c = none) := by
  -- Within a pass the overload without `ec` is tried first.
  have hpass : ∀ convert r,
      (register_read f).findSome? (ReadOverload.attempt py convert c) = some r →
      load_call convert (r.1.params py) c = some r.2 ∧ (r.1 = ⟨f, false⟩ ∨
        r.1 = ⟨f, true⟩ ∧ load_call convert (ReadOverload.params py ⟨f, false⟩) c = none) := by
    intro convert r hr
    rcases hplain : ReadOverload.attempt py convert c ⟨f, false⟩ with - | r'
    · have hec : ReadOverload.attempt py convert c ⟨f, true⟩ = some r := by
        simpa [register_read, hplain] using hr
      obtain ⟨ho, hload⟩ := map_mk_eq_some_iff.mp hec
      exact ⟨ho ▸ hload, Or.inr ⟨ho, Option.map_eq_none_iff.mp hplain⟩⟩
    · obtain rfl : r' = r := by simpa [register_read, hplain] using hr
      obtain ⟨ho, hload⟩ := map_mk_eq_some_iff.mp hplain
      exact ⟨ho ▸ hload, Or.inl ho⟩
  -- The second pass is made where both overloads refuse the call in the first.
  rcases Option.or_eq_some_iff.mp hs with hfirst | ⟨hnone, hsecond⟩
  · obtain ⟨hload, ho⟩ := hpass false _ hfirst
    exact ⟨false, hload, ho, fun h => by cases h⟩
  · obtain ⟨hload, ho⟩ := hpass true _ hsecond
    have hec := List.findSome?_eq_none_iff.mp hnone ⟨f, true⟩ (by simp [register_read])
    exact ⟨true, hload, ho, fun _ => Option.map_eq_none_iff.mp hec⟩

/-- A size that loads in one of the passes is a number. -/
theorem ReadCasters.size_loads {py : ReadCasters β} {convert : Bool} {v : β}
    (h : (py.size convert v).isSome = true) : ∃ n, py.size true v = some n :=
  Option.isSome_iff_exists.mp (py.size_param.loads_true h)

/-- The overload without `ec` throws where the type is no type object, and leaves the stream as it
is. -/
theorem run_plain {py : ReadCasters β} {f : ReadFunction} {convert : Bool} {c : Call String β}
    {vs : List β} (h : load_call convert (ReadOverload.params py ⟨f, false⟩) c = some vs) {v : β}
    (hv : vs[(f.front py).length]? = some v) {tp_name : String}
    (htype : py.type_arg v = .not_a_type tp_name) (p : Stream) :
    ReadOverload.run py ⟨f, false⟩ vs p = some (no_type tp_name p) := by
  obtain ⟨hbound, hload⟩ := load_call_eq_some_iff.mp h
  have hlen := hbound.length_eq
  cases f with
  | read_some | read =>
    obtain ⟨x, b, sz, rfl⟩ : ∃ x b sz, vs = [x, b, sz] := List.length_eq_three.mp hlen
    -- The type is checked by the function, not by a caster.
    obtain rfl : b = v := Option.some.inj hv
    have hall : (py.stream x && (true && ((py.size convert sz).isSome && true))) = true := hload
    simp only [Bool.true_and, Bool.and_true, Bool.and_eq_true] at hall
    obtain ⟨n, hn⟩ := py.size_loads hall.2
    simp only [ReadOverload.run, hn, Option.map_some, htype]
    rfl
  | read_until =>
    obtain ⟨x, delim, b, rfl⟩ : ∃ x delim b, vs = [x, delim, b] := List.length_eq_three.mp hlen
    obtain rfl : b = v := Option.some.inj hv
    have hall : (py.stream x && ((py.string_view delim).isSome && (true && true))) = true := hload
    simp only [Bool.and_true, Bool.and_eq_true] at hall
    obtain ⟨d, hd⟩ := Option.isSome_iff_exists.mp hall.2
    simp only [ReadOverload.run, hd, Option.map_some, htype]
    rfl

/-- No object that a read makes is the exception of the stream. -/
theorem make_object_ne_system_error (m : Mode) (data : List UInt8) (n : ℕ) (e : ErrorCode) :
    make_object m data n ≠ .error (.system_error e) := by
  cases m with
  | bytes => simp [make_object, py_bytes]
  | str =>
    show py_str data n ≠ _
    unfold py_str
    split <;> simp

/-- The overload with `ec` does not throw the error of the stream. -/
theorem run_ec {py : ReadCasters β} {f : ReadFunction} {convert : Bool} {c : Call String β}
    {vs : List β} (h : load_call convert (ReadOverload.params py ⟨f, true⟩) c = some vs)
    (p : Stream) :
    ∃ out, ReadOverload.run py ⟨f, true⟩ vs p = some out ∧
      ∀ e, out.value ≠ .error (.system_error e) := by
  obtain ⟨hbound, hload⟩ := load_call_eq_some_iff.mp h
  have hlen := hbound.length_eq
  have hread : ∀ op b n e, (read_with .error_code op p b n).value ≠ .error (.system_error e) := by
    intro op b n e
    cases b with
    | mode m => exact make_object_ne_system_error m _ _ e
    | other text => simp [read_with, wrong_type]
    | not_a_type tp_name => simp [read_with, no_type]
  have huntil : ∀ d b e, (read_until_with .error_code p d b).value ≠ .error (.system_error e) := by
    intro d b e
    cases b with
    | mode m => exact make_object_ne_system_error m _ _ e
    | other text => simp [read_until_with, wrong_type]
    | not_a_type tp_name => simp [read_until_with, no_type]
  cases f with
  | read_some | read =>
    obtain ⟨x, w, b, sz, rfl⟩ := List.length_eq_four.mp hlen
    have hall : (py.stream x && (py.error_code convert w &&
        (true && ((py.size convert sz).isSome && true)))) = true := hload
    simp only [Bool.true_and, Bool.and_true, Bool.and_eq_true] at hall
    obtain ⟨n, hn⟩ := py.size_loads hall.2.2
    simp only [ReadOverload.run, hn, Option.map_some]
    exact ⟨_, rfl, hread _ _ _⟩
  | read_until =>
    obtain ⟨x, delim, w, b, rfl⟩ := List.length_eq_four.mp hlen
    have hall : (py.stream x && ((py.string_view delim).isSome &&
        (py.error_code convert w && (true && true)))) = true := hload
    simp only [Bool.and_true, Bool.and_eq_true] at hall
    obtain ⟨d, hd⟩ := Option.isSome_iff_exists.mp hall.2.1
    simp only [ReadOverload.run, hd, Option.map_some]
    exact ⟨_, rfl, huntil _ _⟩

/-- A place in front of the end splits a list. -/
theorem exists_split {α : Type} {l : List α} {k : ℕ} (h : k < l.length) :
    ∃ xs a ys, l = xs ++ a :: ys ∧ xs.length = k := by
  refine ⟨l.take k, l[k], l.drop (k + 1), ?_, List.length_take_of_le h.le⟩
  rw [List.cons_getElem_drop_succ, List.take_append_drop]

/-- What is behind the place. -/
theorem getElem?_behind {α : Type} (xs : List α) (a : α) (ys : List α) :
    (xs ++ a :: ys)[xs.length + 1]? = ys[0]? := by
  rw [List.getElem?_append_right (Nat.le_succ _), Nat.succ_eq_add_one, Nat.add_sub_cancel_left,
    List.getElem?_cons_succ]

/-- The overload with `ec` gets what the call gives to `ec`. -/
theorem ec_value_eq {py : ReadCasters β} {f : ReadFunction} {c : Call String β} {vs : List β}
    (h : Bound ((ReadOverload.params py ⟨f, true⟩).map TypedParam.param) c vs) :
    vs[(f.front py).length]? = f.ec_value py c := by
  have hp : ((ReadOverload.params py ⟨f, true⟩).map TypedParam.param)[(f.front py).length]? =
      some ⟨"ec", none⟩ := by
    cases f <;> rfl
  rw [h.value_eq hp, ReadFunction.ec_value]
  cases f <;> simp [value, ReadOverload.params, ReadFunction.front, class_param]

/-- **Which overload gets an `error_code`.** In a call that gives an `error_code` and is served, it
is taken for the type exactly if it is passed by position, the type is not passed at all, and
nothing but a size is passed behind it. Such a call throws a `TypeError` and does not touch the
stream. In every other call the `error_code` is one, and the error of the stream is not thrown. -/
theorem read_error_code_iff {py : ReadCasters β} {f : ReadFunction} {c : Call String β}
    {o : ReadOverload} {vs : List β} {v : β} (hs : call_read py f c = some (o, vs))
    (hv : f.ec_value py c = some v) (hec : py.error_code false v = true) :
    (o.ec = false ↔ TakenAsType py f c) ∧
      (o.ec = false → ∃ tp_name, ∀ p, o.run py vs p = some (no_type tp_name p)) ∧
      (o.ec = true → vs[(f.front py).length]? = some v ∧
        ∀ p, ∃ out, o.run py vs p = some out ∧ ∀ e, out.value ≠ .error (.system_error e)) := by
  obtain ⟨args, kw⟩ := c
  obtain ⟨convert, hload, hfirst, hsecond⟩ := call_read_cases hs
  obtain ⟨hbound, -⟩ := load_call_eq_some_iff.mp hload
  rcases hfirst with rfl | ⟨rfl, hrefused⟩
  · -- No keyword of the call is `ec`, so the argument is given by position.
    have hfree : "ec" ∉ kw := by
      intro hin
      have hname := List.map_subset _ (List.drop_subset _ _) (hbound.named "ec" hin)
      cases f <;> simp [ReadOverload.params, ReadFunction.front, ReadFunction.back, class_param,
        ReadCasters.type_param, ReadCasters.size_param] at hname
    have harg : args[(f.front py).length]? = some v := by
      rw [ReadFunction.ec_value, AList.lookup_eq_none.mpr hfree, Option.or_none] at hv
      exact hv
    obtain ⟨xs, a, tail, rfl, hxs⟩ := exists_split (List.getElem?_eq_some_iff.mp harg).1
    obtain rfl : a = v := by simpa [← hxs] using harg
    obtain ⟨hfront, htype, ws, hws, rfl⟩ := (load_plain_iff hxs).mp hload
    have htaken : TakenAsType py f ⟨xs ++ a :: tail, kw⟩ := by
      refine ⟨?_, ?_, htype, fun w hw => size_of_load_back hws ?_ w ?_⟩
      · simp [← hxs]
      · have hle := hbound.args_le
        simpa [ReadOverload.params, Nat.add_assoc, Nat.add_comm 1] using hle
      · -- The argument is an `error_code`, so the overload with `ec` would have loaded it.
        intro hconvert hec'
        by_contra hserved
        obtain ⟨us, hus⟩ := Option.ne_none_iff_exists'.mp hserved
        have hload' := (load_ec_iff hxs).mpr ⟨hfront, hec', hec, us, hus, rfl⟩
        rw [hsecond hconvert] at hload'
        cases hload'
      · rw [← hw, ← hxs, getElem?_behind]
    obtain ⟨tp_name, htp⟩ := py.error_code_type a hec
    refine ⟨iff_of_true rfl htaken, fun _ => ⟨tp_name, fun p => ?_⟩, fun h => absurd h (by simp)⟩
    exact run_plain hload (by simp [← hxs]) htp p
  · refine ⟨iff_of_false (by simp) fun htaken => ?_, fun h => absurd h (by simp),
      fun _ => ⟨(ec_value_eq hbound).trans hv, run_ec hload⟩⟩
    -- Were it taken for the type, the overload without `ec` would have served the call.
    obtain ⟨xs, a, tail, rfl, hxs⟩ := exists_split htaken.positional
    obtain ⟨hfront, -, -, us, hus, -⟩ := (load_ec_iff hxs).mp hload
    have hlen : tail.length ≤ (f.back py).length := by
      have hle := htaken.length_le
      rw [List.length_append, List.length_cons, hxs] at hle
      omega
    obtain ⟨ws, hws⟩ := load_back_of_type hus hlen htaken.no_type fun w hw =>
      htaken.size w (by rw [← hw, ← hxs, getElem?_behind])
    have hplain := (load_plain_iff (v := a) hxs).mpr ⟨hfront, htaken.no_type, ws, hws, rfl⟩
    rw [hrefused] at hplain
    cases hplain

/-- Python objects of a read. -/
inductive ReadObject where
  | stream
  | error_code
  | bytes_type
  | str_type
  | int (n : ℕ)
  deriving DecidableEq

/-- pybind11's casters on these objects. -/
def sample_read_casters : ReadCasters ReadObject where
  stream v := v = .stream
  error_code _ v := v = .error_code
  string_view _ := none
  size _ v := match v with
    | .int n => some n
    | _ => none
  type_arg v := match v with
    | .bytes_type => .mode .bytes
    | .str_type => .mode .str
    | .stream => .not_a_type "asio.readable_pipe"
    | .error_code => .not_a_type "asio.error_code"
    | .int _ => .not_a_type "int"
  bytes_ := .bytes_type
  pipe_buf := .int 4096
  error_code_mono _ h := h
  size_mono _ _ h := h
  size_pipe_buf := rfl
  error_code_type v h := ⟨"asio.error_code", by rw [of_decide_eq_true h]⟩

/-- `read(s, ec, 10)` takes the `error_code` for the type. -/
theorem read_error_code_iff_size :
    (false = false ↔ TakenAsType sample_read_casters .read ⟨[.stream, .error_code, .int 10], ∅⟩) ∧
      (false = false → ∃ tp_name, ∀ p, ReadOverload.run sample_read_casters ⟨.read, false⟩
        [.stream, .error_code, .int 10] p = some (no_type tp_name p)) ∧
      (false = true → [ReadObject.stream, .error_code, .int 10][1]? = some .error_code ∧
        ∀ p, ∃ out, ReadOverload.run sample_read_casters ⟨.read, false⟩
            [.stream, .error_code, .int 10] p = some out ∧
          ∀ e, out.value ≠ .error (.system_error e)) := by
  have hs : call_read sample_read_casters .read ⟨[.stream, .error_code, .int 10], ∅⟩ =
      some (⟨.read, false⟩, [.stream, .error_code, .int 10]) := rfl
  exact read_error_code_iff hs rfl rfl

example : call_read sample_read_casters .read ⟨[.stream, .error_code, .str_type], ∅⟩ =
    some (⟨.read, true⟩, [.stream, .error_code, .str_type, .int 4096]) := rfl

end AsioPy
