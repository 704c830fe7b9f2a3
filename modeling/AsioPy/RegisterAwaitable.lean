import AsioPy.TypeName
import Mathlib.Data.List.Induction
import Mathlib.Data.List.ProdSigma

/-!
# The registration of awaitables by name

`register_awaitable<T, Executor>` registers a class for `asio::awaitable<T, Executor>` under a name
that it makes of the names of the two types, and does nothing if the module has that attribute. It
also registers `asio::awaitable<py::object, Executor>` once per executor, under a name that it makes
of the executor alone. The names are lossy, and a result type `py::object` asks for the shared class
itself. `registers_safely_iff` says for which sequences of calls nothing goes wrong: `NamesApart`.

The invariant is `RegisteredAfter`: the attributes and classes after a sequence of calls in which no
name stood for another pair.
-/

namespace AsioPy

/-- The C++ types, as `register_awaitable` sees them. -/
structure AwaitableTypes (τ γ φ : Type) where
  /-- `get_type_name` -/
  get_type_name : τ → StringView
  /-- `std::string` -/
  string : τ
  /-- `py::object` -/
  object : τ
  any_io_executor : τ
  /-- `type_handle`, which throws for a type without a Python class. -/
  type_handle : τ → Except φ γ
  /-- It asks for the class of a null object. -/
  object_handle : ∃ x, type_handle object = .error x

/-- What ends a registration. -/
inductive AwaitableError (τ φ : Type) where
  /-- pybind11: "an object with that name is already defined" -/
  | name_exists (name : StringView)
  /-- pybind11: "type is already registered!" -/
  | already_registered (T Executor : τ)
  /-- `type_handle` threw. -/
  | type_handle (x : φ)

/-- The module and the registered classes. -/
structure AwaitableRegistry (τ : Type) where
  /-- The attributes, each with the `T` and the `Executor` of its class if it is one of
  `asio::awaitable<T, Executor>`. -/
  attrs : List (StringView × Option (τ × τ))
  /-- The `asio::awaitable<T, Executor>` that are registered. -/
  types : List (τ × τ)

variable {τ γ φ : Type}

/-- `hasattr` -/
def AwaitableRegistry.hasattr (r : AwaitableRegistry τ) (name : StringView) : Bool :=
  r.attrs.any fun a => a.1 = name

/-- The module with one more class. -/
def AwaitableRegistry.add (r : AwaitableRegistry τ) (name : StringView) (c : τ × τ) :
    AwaitableRegistry τ :=
  ⟨r.attrs ++ [(name, some c)], r.types ++ [c]⟩

/-- A module that has these attributes, and no class of an awaitable. -/
def AwaitableRegistry.initial (names : List StringView) : AwaitableRegistry τ :=
  ⟨names.map fun name => (name, none), []⟩

variable [DecidableEq τ]

/-- `py::class_<asio::awaitable<T, Executor>>(m, name)` -/
def AwaitableRegistry.class_ (r : AwaitableRegistry τ) (name : StringView) (c : τ × τ) :
    Except (AwaitableError τ φ) (AwaitableRegistry τ) :=
  if r.hasattr name then .error (.name_exists name)
  else if c ∈ r.types then .error (.already_registered c.1 c.2)
  else .ok (r.add name c)

/-- The default `name`. -/
def AwaitableTypes.name (C : AwaitableTypes τ γ φ) (c : τ × τ) : StringView :=
  ascii "awaitable_" ++ get_sanitized_type_name C.get_type_name C.string c.1 ++ ascii "_" ++
    get_sanitized_type_name C.get_type_name C.string c.2

/-- `nm`: the name of the class that the result types share. -/
def AwaitableTypes.nm (C : AwaitableTypes τ γ φ) (Executor : τ) : StringView :=
  if Executor = C.any_io_executor then ascii "awaitable"
  else ascii "awaitable_" ++ get_sanitized_type_name C.get_type_name C.string Executor

/-- The shared class, registered if its name is free. -/
def register_shared_awaitable (C : AwaitableTypes τ γ φ) (m : AwaitableRegistry τ) (Executor : τ) :
    Except (AwaitableError τ φ) (AwaitableRegistry τ) :=
  if m.hasattr (C.nm Executor) then .ok m
  else
    match m.class_ (C.nm Executor) (C.object, Executor) with
    | .error x => .error x
    | .ok m =>
      match C.type_handle Executor with
      | .error x => .error (.type_handle x)
      | .ok _ => .ok m

/-- `register_awaitable<T, Executor>(m)`, for `c` the pair of the two. -/
def register_awaitable (C : AwaitableTypes τ γ φ) (m : AwaitableRegistry τ) (c : τ × τ) :
    Except (AwaitableError τ φ) (AwaitableRegistry τ) :=
  if m.hasattr (C.name c) then .ok m
  else
    match register_shared_awaitable C m c.2 with
    | .error x => .error x
    | .ok m =>
      match m.class_ (C.name c) c with
      | .error x => .error x
      | .ok m =>
        -- The attributes `executor_type` and `value_type`.
        match C.type_handle c.2, C.type_handle c.1 with
        | .error x, _ => .error (.type_handle x)
        | _, .error x => .error (.type_handle x)
        | .ok _, .ok _ => .ok m

/-- Calls of `register_awaitable`, one after the other. -/
def register_awaitables (C : AwaitableTypes τ γ φ) (m : AwaitableRegistry τ)
    (calls : List (τ × τ)) : Except (AwaitableError τ φ) (AwaitableRegistry τ) :=
  calls.foldlM (register_awaitable C) m

/-- `register_awaitable<T>(m)` -/
def register_awaitable_all (C : AwaitableTypes τ γ φ) (m : AwaitableRegistry τ) (T : τ)
    (all_executors : List τ) : Except (AwaitableError τ φ) (AwaitableRegistry τ) :=
  register_awaitables C m (all_executors.map fun Executor => (T, Executor))

/-- Nothing goes wrong in these calls: none throws; afterwards every requested pair has its class,
and no type is registered twice; and where a call was skipped, the name was made for its pair. -/
structure RegistersSafely (C : AwaitableTypes τ γ φ) (names : List StringView)
    (calls : List (τ × τ)) : Prop where
  registered : ∃ m, register_awaitables C (.initial names) calls = .ok m ∧
    (∀ c ∈ calls, (C.name c, some c) ∈ m.attrs) ∧ m.types.Nodup
  skipped : ∀ before c after m, calls = before ++ c :: after →
    register_awaitables C (.initial names) before = .ok m → m.hasattr (C.name c) →
      (C.name c, some c) ∈ m.attrs

/-- The first call for a pair, after these calls, finds its name free: it is neither that of another
attribute, nor the name of a pair that was requested, nor that of the shared class for the executor
of one. Both types have Python classes. -/
structure NameFree (C : AwaitableTypes τ γ φ) (names : List StringView) (before : List (τ × τ))
    (c : τ × τ) : Prop where
  value_type : ∃ t, C.type_handle c.1 = .ok t
  executor_type : ∃ t, C.type_handle c.2 = .ok t
  no_attribute : C.name c ∉ names
  no_pair : ∀ d ∈ before, C.name c ≠ C.name d
  no_shared : ∀ d ∈ before, C.name c ≠ C.nm d.2

/-- Every call is for a pair that was requested before, or finds its name free. -/
def NamesApart (C : AwaitableTypes τ γ φ) (names : List StringView) (calls : List (τ × τ)) : Prop :=
  ∀ before c after, calls = before ++ c :: after → c ∈ before ∨ NameFree C names before c

/-- A predicate on every call with those before it, for one more call at the end. -/
theorem forall_split_append_singleton {α : Type} {P : List α → α → Prop} {as : List α} {a : α} :
    (∀ before b after, as ++ [a] = before ++ b :: after → P before b) ↔
      (∀ before b after, as = before ++ b :: after → P before b) ∧ P as a := by
  constructor
  · intro h
    refine ⟨fun before b after hsplit => ?_, h as a [] rfl⟩
    exact h before b (after ++ [a]) (by rw [hsplit]; simp)
  · rintro ⟨hbefore, hlast⟩ before b after hsplit
    rcases List.eq_nil_or_concat after with rfl | ⟨after, x, rfl⟩
    · obtain ⟨rfl, hab⟩ := List.append_inj' hsplit rfl
      obtain rfl := (List.cons.inj hab).1
      exact hlast
    · rw [List.concat_eq_append, ← List.cons_append, ← List.append_assoc] at hsplit
      obtain ⟨rfl, -⟩ := List.append_inj' hsplit rfl
      exact hbefore before b after rfl

omit [DecidableEq τ] in
/-- The attributes after one more class. -/
@[simp] theorem AwaitableRegistry.hasattr_add (m : AwaitableRegistry τ) (name n : StringView)
    (c : τ × τ) : (m.add name c).hasattr n = (m.hasattr n || decide (name = n)) := by
  simp [hasattr, add]

omit [DecidableEq τ] in
/-- The attributes of the module before the calls. -/
@[simp] theorem AwaitableRegistry.hasattr_initial (names : List StringView) (n : StringView) :
    (initial names : AwaitableRegistry τ).hasattr n = decide (n ∈ names) := by
  rw [Bool.eq_iff_iff]
  simp [hasattr, initial]

/-- The name of a pair is longer than the shared name of its executor. -/
theorem AwaitableTypes.name_ne_nm (C : AwaitableTypes τ γ φ) (c : τ × τ) : C.name c ≠ C.nm c.2 := by
  have hlong : (ascii "awaitable_").length = 10 := by decide
  have hshort : (ascii "awaitable").length = 9 := by decide
  have hunderscore : (ascii "_").length = 1 := by decide
  intro h
  have hlength := congrArg List.length h
  unfold name nm at hlength
  split_ifs at hlength <;> simp only [List.length_append] at hlength <;> omega

/-- The attributes and the classes after the registration of these pairs, and of the shared classes
of these executors, where no name stood for another pair. -/
structure RegisteredAfter (C : AwaitableTypes τ γ φ) (names : List StringView)
    (pairs : List (τ × τ)) (executors : List τ) (m : AwaitableRegistry τ) : Prop where
  /-- The attributes are the ones from before, the pairs' names and the shared names. -/
  hasattr_iff : ∀ n, m.hasattr n ↔
    n ∈ names ∨ (∃ d ∈ pairs, n = C.name d) ∨ ∃ e ∈ executors, n = C.nm e
  /-- A class was made for a pair, or is a shared one. -/
  made : ∀ n x, (n, some x) ∈ m.attrs → x ∈ pairs ∨ n = C.nm x.2
  /-- Every pair has its class. -/
  registered : ∀ d ∈ pairs, (C.name d, some d) ∈ m.attrs
  /-- The types are those of the pairs and the shared ones. -/
  types : ∀ x ∈ m.types, x ∈ pairs ∨ (x.1 = C.object ∧ x.2 ∈ executors)
  /-- `py::object` is in none of the pairs. -/
  no_object : ∀ d ∈ pairs, d.1 ≠ C.object
  nodup : m.types.Nodup

namespace RegisteredAfter

variable {C : AwaitableTypes τ γ φ} {names : List StringView} {pairs : List (τ × τ)}
  {executors : List τ} {m : AwaitableRegistry τ}

/-- Before any call. -/
theorem initial (C : AwaitableTypes τ γ φ) (names : List StringView) :
    RegisteredAfter C names [] [] (.initial names) where
  hasattr_iff n := by simp
  made n x hx := by simp [AwaitableRegistry.initial] at hx
  registered d hd := by cases hd
  types x hx := by cases hx
  no_object d hd := by cases hd
  nodup := List.nodup_nil

/-- One more type without duplicates. -/
theorem nodup_add {name : StringView} {c : τ × τ} (h : RegisteredAfter C names pairs executors m)
    (hnew : c ∉ m.types) : (m.add name c).types.Nodup := by
  show (m.types ++ [c]).Nodup
  rw [← List.concat_eq_append, List.nodup_concat]
  exact ⟨hnew, h.nodup⟩

omit [DecidableEq τ] in
/-- The classes after one more. -/
theorem mem_add_attrs {n name : StringView} {x c : τ × τ}
    (h : (n, some x) ∈ (m.add name c).attrs) : (n, some x) ∈ m.attrs ∨ (n = name ∧ x = c) := by
  rcases List.mem_append.mp h with h | h
  · exact Or.inl h
  · obtain ⟨rfl, hx⟩ := Prod.mk.inj (List.mem_singleton.mp h)
    exact Or.inr ⟨rfl, Option.some.inj hx⟩

/-- The shared class is there already. -/
theorem keep_shared (h : RegisteredAfter C names pairs executors m) {e : τ}
    (hnm : m.hasattr (C.nm e)) : RegisteredAfter C names pairs (executors ++ [e]) m where
  hasattr_iff n := by
    rw [h.hasattr_iff]
    have hmem := (h.hasattr_iff _).mp hnm
    constructor
    · rintro (hn | hn | ⟨e', he', hn⟩)
      · exact Or.inl hn
      · exact Or.inr (Or.inl hn)
      · exact Or.inr (Or.inr ⟨e', List.mem_append_left _ he', hn⟩)
    · rintro (hn | hn | ⟨e', he', rfl⟩)
      · exact Or.inl hn
      · exact Or.inr (Or.inl hn)
      · rcases List.mem_append.mp he' with he' | he'
        · exact Or.inr (Or.inr ⟨e', he', rfl⟩)
        · rwa [List.mem_singleton.mp he']
  made := h.made
  registered := h.registered
  types x hx := (h.types x hx).imp_right fun hs => ⟨hs.1, List.mem_append_left _ hs.2⟩
  no_object := h.no_object
  nodup := h.nodup

/-- The shared class is registered. -/
theorem add_shared (h : RegisteredAfter C names pairs executors m) {e : τ}
    (hnew : (C.object, e) ∉ m.types) :
    RegisteredAfter C names pairs (executors ++ [e]) (m.add (C.nm e) (C.object, e)) where
  hasattr_iff n := by
    rw [AwaitableRegistry.hasattr_add, Bool.or_eq_true, h.hasattr_iff, decide_eq_true_eq]
    simp only [List.mem_append, List.mem_singleton, or_and_right, exists_or, exists_eq_left,
      or_assoc]
    rw [eq_comm (a := C.nm e)]
  made n x hx := by
    rcases mem_add_attrs hx with hx | ⟨rfl, rfl⟩
    · exact h.made n x hx
    · exact Or.inr rfl
  registered d hd := List.mem_append_left _ (h.registered d hd)
  types x hx := by
    rcases List.mem_append.mp hx with hx | hx
    · exact (h.types x hx).imp_right fun hs => ⟨hs.1, List.mem_append_left _ hs.2⟩
    · rw [List.mem_singleton.mp hx]
      exact Or.inr ⟨rfl, List.mem_append_right _ (List.mem_singleton_self e)⟩
  no_object := h.no_object
  nodup := h.nodup_add hnew

/-- A pair is registered. -/
theorem add_pair (h : RegisteredAfter C names pairs executors m) {c : τ × τ}
    (hobject : c.1 ≠ C.object) (hnew : c ∉ m.types) :
    RegisteredAfter C names (pairs ++ [c]) executors (m.add (C.name c) c) where
  hasattr_iff n := by
    rw [AwaitableRegistry.hasattr_add, Bool.or_eq_true, h.hasattr_iff, decide_eq_true_eq]
    simp only [List.mem_append, List.mem_singleton, or_and_right, exists_or, exists_eq_left]
    rw [eq_comm (a := C.name c), or_assoc, or_assoc, or_assoc, or_comm (b := n = C.name c)]
  made n x hx := by
    rcases mem_add_attrs hx with hx | ⟨-, rfl⟩
    · exact (h.made n x hx).imp_left (List.mem_append_left _)
    · exact Or.inl (List.mem_append_right _ (List.mem_singleton_self x))
  registered d hd := by
    rcases List.mem_append.mp hd with hd | hd
    · exact List.mem_append_left _ (h.registered d hd)
    · rw [List.mem_singleton.mp hd]
      exact List.mem_append_right _ (List.mem_singleton_self _)
  types x hx := by
    rcases List.mem_append.mp hx with hx | hx
    · exact (h.types x hx).imp_left (List.mem_append_left _)
    · exact Or.inl (List.mem_append_right _ hx)
  no_object d hd := by
    rcases List.mem_append.mp hd with hd | hd
    · exact h.no_object d hd
    · rwa [List.mem_singleton.mp hd]
  nodup := h.nodup_add hnew

/-- Where `py::object` was not requested, the shared class can be made if its name is free. -/
theorem register_shared (h : RegisteredAfter C names pairs executors m) {e : τ}
    (hhandle : ∃ t, C.type_handle e = .ok t) :
    ∃ m', register_shared_awaitable C m e = .ok m' ∧
      RegisteredAfter C names pairs (executors ++ [e]) m' := by
  unfold register_shared_awaitable
  by_cases hnm : m.hasattr (C.nm e)
  · rw [if_pos hnm]
    exact ⟨m, rfl, h.keep_shared hnm⟩
  · have hnew : (C.object, e) ∉ m.types := by
      intro hmem
      rcases h.types _ hmem with hcall | ⟨-, he⟩
      · exact h.no_object _ hcall rfl
      · exact hnm ((h.hasattr_iff _).mpr (Or.inr (Or.inr ⟨e, he, rfl⟩)))
    obtain ⟨t, ht⟩ := hhandle
    refine ⟨m.add (C.nm e) (C.object, e), ?_, h.add_shared hnew⟩
    rw [if_neg hnm, AwaitableRegistry.class_, if_neg hnm, if_neg hnew]
    simp only [ht]

/-- A call for a pair that is registered does nothing. -/
theorem register_again {calls : List (τ × τ)}
    (h : RegisteredAfter C names calls (calls.map Prod.snd) m) {c : τ × τ} (hc : c ∈ calls) :
    register_awaitable C m c = .ok m ∧
      RegisteredAfter C names (calls ++ [c]) ((calls ++ [c]).map Prod.snd) m := by
  have hname : m.hasattr (C.name c) := (h.hasattr_iff _).mpr (Or.inr (Or.inl ⟨c, hc, rfl⟩))
  have hmem : ∀ d, d ∈ calls ++ [c] ↔ d ∈ calls := by
    intro d
    rw [List.mem_append, List.mem_singleton]
    exact ⟨fun hd => hd.elim id fun heq => heq ▸ hc, Or.inl⟩
  refine ⟨by rw [register_awaitable, if_pos hname], ?_⟩
  obtain ⟨hattr, hmade, hregistered, htypes, hobject, hnodup⟩ := h
  simp only [List.mem_map] at hattr htypes
  constructor <;> simpa only [hmem, List.mem_map]

/-- A name that is none of those is no attribute. -/
theorem hasattr_eq_false (h : RegisteredAfter C names pairs executors m) {n : StringView}
    (hnames : n ∉ names) (hpairs : ∀ d ∈ pairs, n ≠ C.name d)
    (hexecutors : ∀ e ∈ executors, n ≠ C.nm e) : m.hasattr n = false := by
  rw [Bool.eq_false_iff]
  intro hattr
  rcases (h.hasattr_iff n).mp hattr with hn | ⟨d, hd, hn⟩ | ⟨e, he, hn⟩
  · exact hnames hn
  · exact hpairs d hd hn
  · exact hexecutors e he hn

/-- A call that finds its name free registers the pair. -/
theorem register_new {calls : List (τ × τ)}
    (h : RegisteredAfter C names calls (calls.map Prod.snd) m) {c : τ × τ}
    (hfree : NameFree C names calls c) :
    m.hasattr (C.name c) = false ∧ ∃ m', register_awaitable C m c = .ok m' ∧
      RegisteredAfter C names (calls ++ [c]) ((calls ++ [c]).map Prod.snd) m' := by
  have hearlier : ∀ e ∈ calls.map Prod.snd, C.name c ≠ C.nm e :=
    List.forall_mem_map.mpr hfree.no_shared
  have hname := h.hasattr_eq_false hfree.no_attribute hfree.no_pair hearlier
  obtain ⟨t1, ht1⟩ := hfree.value_type
  obtain ⟨t2, ht2⟩ := hfree.executor_type
  have hobject : c.1 ≠ C.object := by
    intro heq
    obtain ⟨x, hx⟩ := C.object_handle
    rw [heq, hx] at ht1
    cases ht1
  obtain ⟨m1, hshared, h1⟩ := h.register_shared hfree.executor_type
  -- The shared name is another one, and nobody registered the pair.
  have hname1 : m1.hasattr (C.name c) = false := by
    refine h1.hasattr_eq_false hfree.no_attribute hfree.no_pair fun e he => ?_
    rcases List.mem_append.mp he with he | he
    · exact hearlier e he
    · rw [List.mem_singleton.mp he]
      exact C.name_ne_nm c
  have hnew : c ∉ m1.types := by
    intro hmem
    rcases h1.types c hmem with hc | ⟨hc, -⟩
    · exact hfree.no_pair c hc rfl
    · exact hobject hc
  refine ⟨hname, m1.add (C.name c) c, ?_, ?_⟩
  · have hclass : (m1.class_ (C.name c) c : Except (AwaitableError τ φ) _) =
        .ok (m1.add (C.name c) c) := by
      unfold AwaitableRegistry.class_
      rw [hname1, if_neg hnew]
      rfl
    unfold register_awaitable
    rw [hname, hshared]
    simp only [hclass, ht1, ht2, Bool.false_eq_true, if_false]
  · rw [List.map_append]
    exact h1.add_pair hobject hnew

end RegisteredAfter

/-- A call that returns and is not skipped has found Python classes for both types. -/
theorem handles_of_register_awaitable {C : AwaitableTypes τ γ φ} {m m' : AwaitableRegistry τ}
    {c : τ × τ} (hname : m.hasattr (C.name c) = false) (h : register_awaitable C m c = .ok m') :
    (∃ t, C.type_handle c.1 = .ok t) ∧ ∃ t, C.type_handle c.2 = .ok t := by
  unfold register_awaitable at h
  rw [hname] at h
  rcases hshared : register_shared_awaitable C m c.2 with x | m1
  · simp [hshared] at h
  · rcases hclass : (m1.class_ (C.name c) c : Except (AwaitableError τ φ) _) with x | m2
    · simp [hshared, hclass] at h
    · rcases h1 : C.type_handle c.1 with x | t1 <;> rcases h2 : C.type_handle c.2 with y | t2
      · simp [hshared, hclass, h1, h2] at h
      · simp [hshared, hclass, h1, h2] at h
      · simp [hshared, hclass, h1, h2] at h
      · exact ⟨⟨t1, rfl⟩, t2, rfl⟩

/-- One more call at the end. -/
theorem register_awaitables_append_singleton (C : AwaitableTypes τ γ φ) (m : AwaitableRegistry τ)
    (calls : List (τ × τ)) (c : τ × τ) :
    register_awaitables C m (calls ++ [c]) =
      (register_awaitables C m calls).bind fun m' => register_awaitable C m' c := by
  unfold register_awaitables
  rw [List.foldlM_append]
  refine congrArg _ (funext fun m' => ?_)
  rw [List.foldlM_cons]
  rcases register_awaitable C m' c with x | m'' <;> rfl

/-- **Names that are apart.** The calls return, and the invariant holds after them. -/
theorem registeredAfter_of_namesApart {C : AwaitableTypes τ γ φ} {names : List StringView}
    {calls : List (τ × τ)} (h : NamesApart C names calls) :
    ∃ m, register_awaitables C (.initial names) calls = .ok m ∧
      RegisteredAfter C names calls (calls.map Prod.snd) m := by
  induction calls using List.reverseRecOn with
  | nil => exact ⟨_, rfl, .initial C names⟩
  | append_singleton calls c ih =>
    obtain ⟨hcalls, hc⟩ := forall_split_append_singleton.mp h
    obtain ⟨m, hm, hafter⟩ := ih hcalls
    simp only [register_awaitables_append_singleton, hm]
    rcases hc with hc | hfree
    · exact ⟨m, hafter.register_again hc⟩
    · exact (hafter.register_new hfree).2

/-- Calls that return, and skip none for another pair's name, have their names apart. -/
theorem namesApart_of_skipped {C : AwaitableTypes τ γ φ} {names : List StringView}
    {calls : List (τ × τ)} {m : AwaitableRegistry τ}
    (hrun : register_awaitables C (.initial names) calls = .ok m)
    (hskipped : ∀ before c after, calls = before ++ c :: after →
      ∀ m, register_awaitables C (.initial names) before = .ok m → m.hasattr (C.name c) →
        (C.name c, some c) ∈ m.attrs) : NamesApart C names calls := by
  induction calls using List.reverseRecOn generalizing m with
  | nil =>
    intro before c after hsplit
    simp at hsplit
  | append_singleton calls c ih =>
    obtain ⟨hcalls, hc⟩ := forall_split_append_singleton.mp hskipped
    rw [register_awaitables_append_singleton] at hrun
    rcases hm : register_awaitables C (.initial names) calls with x | m1
    · simp [hm, Except.bind] at hrun
    · have hlast : register_awaitable C m1 c = .ok m := by simpa [hm, Except.bind] using hrun
      have hapart := ih hm hcalls
      obtain ⟨m1', hm1', hafter⟩ := registeredAfter_of_namesApart hapart
      obtain rfl : m1 = m1' := Except.ok.inj (hm.symm.trans hm1')
      refine forall_split_append_singleton.mpr ⟨hapart, ?_⟩
      rcases hname : m1.hasattr (C.name c) with - | -
      · -- The call made the class, so that the name was free.
        obtain ⟨hvalue, hexecutor⟩ := handles_of_register_awaitable hname hlast
        have hnot := (hafter.hasattr_iff (C.name c)).not.mp (by simp [hname])
        rw [not_or, not_or] at hnot
        refine Or.inr ⟨hvalue, hexecutor, hnot.1, fun d hd heq => hnot.2.1 ⟨d, hd, heq⟩, ?_⟩
        exact fun d hd heq => hnot.2.2 ⟨d.2, List.mem_map_of_mem hd, heq⟩
      · rcases hafter.made _ _ (hc m1 hm hname) with hmem | heq
        · exact Or.inl hmem
        · exact absurd heq (C.name_ne_nm c)

/-- Where nothing goes wrong, the names are apart. -/
theorem RegistersSafely.namesApart {C : AwaitableTypes τ γ φ} {names : List StringView}
    {calls : List (τ × τ)} (h : RegistersSafely C names calls) : NamesApart C names calls := by
  obtain ⟨⟨m, hm, -, -⟩, hskipped⟩ := h
  exact namesApart_of_skipped hm fun before c after hsplit m' => hskipped before c after m' hsplit

/-- **When registering by name is safe.** For all calls, in any order and with repetitions, and a
module with any attributes: nothing goes wrong exactly if the first call for each pair finds its
name free, and the types have Python classes. `py::object` has none. -/
theorem registers_safely_iff (C : AwaitableTypes τ γ φ) (names : List StringView)
    (calls : List (τ × τ)) : RegistersSafely C names calls ↔ NamesApart C names calls := by
  constructor
  · exact RegistersSafely.namesApart
  · intro h
    obtain ⟨m, hm, hafter⟩ := registeredAfter_of_namesApart h
    refine ⟨⟨m, hm, hafter.registered, hafter.nodup⟩, ?_⟩
    intro before c after m' hsplit hm' hname
    -- The calls before have their names apart as well.
    have hbefore : NamesApart C names before := by
      intro b d a hd
      exact h b d (a ++ c :: after) (by rw [hsplit, hd]; simp)
    obtain ⟨m1, hm1, hafter1⟩ := registeredAfter_of_namesApart hbefore
    obtain rfl : m' = m1 := Except.ok.inj (hm'.symm.trans hm1)
    rcases h before c after hsplit with hc | hfree
    · exact hafter1.registered c hc
    · rw [(hafter1.register_new hfree).1] at hname
      cases hname

/-- C++ types by their names, all but `py::object` with a Python class of the same name. -/
def named_types : AwaitableTypes String String Unit where
  get_type_name := ascii
  string := "std::string"
  object := "pybind11::object"
  any_io_executor := "asio::any_io_executor"
  type_handle T := if T = "pybind11::object" then .error () else .ok T
  object_handle := ⟨(), rfl⟩

/-- A single call for `py::object` registers a class twice. Of `a::b` and `a__b`, the second is
skipped for the name of the first. -/
theorem register_awaitable_object_unsafe :
    register_awaitables named_types (.initial [])
        [("pybind11::object", "asio::io_context::executor_type")] =
      .error (.already_registered "pybind11::object" "asio::io_context::executor_type") ∧
    ¬ RegistersSafely named_types [] [("pybind11::object", "asio::io_context::executor_type")] ∧
    ¬ RegistersSafely named_types []
      [("a::b", "asio::any_io_executor"), ("a__b", "asio::any_io_executor")] := by
  refine ⟨rfl, ?_, ?_⟩
  · intro h
    rcases h.namesApart [] _ [] rfl with hc | hfree
    · cases hc
    · obtain ⟨t, ht⟩ := hfree.value_type
      cases ht
  · intro h
    rcases h.namesApart [("a::b", "asio::any_io_executor")] _ [] rfl with hc | hfree
    · revert hc
      decide
    · exact hfree.no_pair _ (List.mem_singleton_self _) (by decide)

/-- Any order is safe for pairs whose names are different from one another and from the shared
names. -/
theorem namesApart_of_injOn {C : AwaitableTypes τ γ φ} {names : List StringView}
    {calls : List (τ × τ)}
    (hhandles : ∀ c ∈ calls, (∃ t, C.type_handle c.1 = .ok t) ∧ ∃ t, C.type_handle c.2 = .ok t)
    (hattr : ∀ c ∈ calls, C.name c ∉ names)
    (hname : ∀ c ∈ calls, ∀ d ∈ calls, C.name c = C.name d → c = d)
    (hnm : ∀ c ∈ calls, ∀ d ∈ calls, C.name c ≠ C.nm d.2) : NamesApart C names calls := by
  rintro before c after rfl
  by_cases hc : c ∈ before
  · exact Or.inl hc
  · have hmem : c ∈ before ++ c :: after := List.mem_append_right _ List.mem_cons_self
    have hearlier : ∀ d ∈ before, d ∈ before ++ c :: after :=
      fun d hd => List.mem_append_left _ hd
    refine Or.inr ⟨(hhandles c hmem).1, (hhandles c hmem).2, hattr c hmem, ?_, ?_⟩
    · intro d hd heq
      exact hc (hname c hmem d (hearlier d hd) heq ▸ hd)
    · exact fun d hd => hnm c hmem d (hearlier d hd)

/-- The calls for some result types are those for each of them with every executor. -/
theorem foldlM_register_awaitable_all (C : AwaitableTypes τ γ φ) (m : AwaitableRegistry τ)
    (results all_executors : List τ) :
    results.foldlM (fun m T => register_awaitable_all C m T all_executors) m =
      register_awaitables C m (results.product all_executors) := by
  induction results generalizing m with
  | nil => rfl
  | cons T results ih =>
    have hproduct : (T :: results).product all_executors =
        all_executors.map (Prod.mk T) ++ results.product all_executors := rfl
    rw [hproduct, register_awaitables, List.foldlM_append, List.foldlM_cons]
    exact congrArg _ (funext fun m' => ih m')

/-- **Every result type with every executor.** Where all types have Python classes, and the names of
the pairs are different from one another, from the shared names and from the module's attributes,
`register_awaitable<T>` can be called for any result types, in any order: every pair gets its class,
and no type is registered twice. -/
theorem register_awaitable_all_registers {C : AwaitableTypes τ γ φ} {names : List StringView}
    {results all_executors : List τ}
    (hhandles : ∀ c ∈ results.product all_executors,
      (∃ t, C.type_handle c.1 = .ok t) ∧ ∃ t, C.type_handle c.2 = .ok t)
    (hattr : ∀ c ∈ results.product all_executors, C.name c ∉ names)
    (hname : ∀ c ∈ results.product all_executors, ∀ d ∈ results.product all_executors,
      C.name c = C.name d → c = d)
    (hnm : ∀ c ∈ results.product all_executors, ∀ d ∈ results.product all_executors,
      C.name c ≠ C.nm d.2) :
    ∃ m, results.foldlM (fun m T => register_awaitable_all C m T all_executors)
        (.initial names) = .ok m ∧
      (∀ T ∈ results, ∀ Executor ∈ all_executors,
        (C.name (T, Executor), some (T, Executor)) ∈ m.attrs) ∧ m.types.Nodup := by
  obtain ⟨m, hm, hafter⟩ :=
    registeredAfter_of_namesApart (namesApart_of_injOn hhandles hattr hname hnm)
  refine ⟨m, by rw [foldlM_register_awaitable_all, hm], ?_, hafter.nodup⟩
  intro T hT Executor hExecutor
  exact hafter.registered _ (List.mem_product.mpr ⟨hT, hExecutor⟩)

end AsioPy
