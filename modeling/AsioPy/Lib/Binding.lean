import Mathlib.Data.List.AList

/-!
# Binding the arguments of a call to named parameters

A call has positional arguments and keywords, and a function has a list of named parameters, some
with a default. `bind` is the common rule: the positional arguments go to the first parameters,
which must not be named by a keyword as well; every other parameter takes the keyword of its name,
else its default; and no keyword may be left over. A keyword is used up by the first parameter of
its name, so names that occur twice have a meaning too.

`bind` goes through the parameters once (`fill`). `bind_iff` says what comes of it by the place of
each parameter: the value is the argument at its place, or what `value` says.
-/

namespace Binding

/-- A parameter: its name, and its default if it has one. -/
structure Param (ν β : Type*) where
  name : ν
  default : Option β

/-- A call. The keywords are a dictionary. -/
structure Call (ν β : Type*) where
  args : List β
  kwargs : AList fun _ : ν => β

variable {ν β : Type*} [DecidableEq ν]

/-- Parameters without a positional argument: their values, and the keywords that are left. -/
def fill : List (Param ν β) → AList (fun _ : ν => β) → Option (List β × AList fun _ : ν => β)
  | [], kw => some ([], kw)
  | p :: ps, kw =>
    match (kw.lookup p.name).or p.default with
    | none => none
    -- The keyword is taken out, so a second parameter of the name does not find it.
    | some v => (fill ps (kw.erase p.name)).map fun r => (v :: r.1, r.2)

/-- The values of the parameters in a call. -/
def bind (params : List (Param ν β)) (c : Call ν β) : Option (List β) :=
  if params.length < c.args.length then none
  else if ∃ p ∈ params.take c.args.length, p.name ∈ c.kwargs then none
  else
    match fill (params.drop c.args.length) c.kwargs with
    | none => none
    | some (vs, left) => if left.keys = [] then some (c.args ++ vs) else none

/-- What the parameter `p` takes without a positional argument, where the parameters `before` come
first: the keyword of its name, unless one of them has used it up, else its default. -/
def value (before : List (Param ν β)) (kw : AList fun _ : ν => β) (p : Param ν β) : Option β :=
  if p.name ∈ before.map Param.name then p.default else (kw.lookup p.name).or p.default

/-- The keyword of the first parameter's name is used up for the others. -/
theorem value_cons (q : Param ν β) (before : List (Param ν β)) (kw : AList fun _ : ν => β)
    (p : Param ν β) : value (q :: before) kw p = value before (kw.erase q.name) p := by
  unfold value
  by_cases hq : p.name = q.name
  · rw [hq, AList.lookup_erase, Option.none_or]
    simp
  · simp [hq, AList.lookup_erase_ne hq]

/-- What `fill` leaves and the values that it finds. -/
theorem fill_eq_some {ps : List (Param ν β)} {kw left : AList fun _ : ν => β} {vs : List β}
    (h : fill ps kw = some (vs, left)) :
    (∀ n, n ∈ left ↔ n ∈ kw ∧ n ∉ ps.map Param.name) ∧ vs.length = ps.length ∧
      ∀ i p, ps[i]? = some p → vs[i]? = value (ps.take i) kw p := by
  induction ps generalizing kw vs with
  | nil =>
    obtain ⟨rfl, rfl⟩ : [] = vs ∧ kw = left := by simpa [fill] using h
    simp
  | cons q ps ih =>
    unfold fill at h
    split at h
    · cases h
    · next v hv =>
      obtain ⟨⟨ws, left'⟩, hfill, hr⟩ := Option.map_eq_some_iff.mp h
      obtain ⟨rfl, rfl⟩ : v :: ws = vs ∧ left' = left := by simpa using hr
      obtain ⟨hleft, hlen, hvalue⟩ := ih hfill
      refine ⟨fun n => ?_, by simpa using hlen, fun i p hp => ?_⟩
      · rw [hleft, AList.mem_erase, List.map_cons, List.mem_cons, not_or]
        tauto
      · -- The first parameter has the keyword, and the others are behind it.
        cases i with
        | zero =>
          obtain rfl : q = p := by simpa using hp
          simpa [value] using hv.symm
        | succ i =>
          rw [List.take_succ_cons, value_cons]
          exact hvalue i p (by simpa using hp)

/-- `fill` fails where a parameter takes nothing. -/
theorem fill_eq_none {ps : List (Param ν β)} {kw : AList fun _ : ν => β} (h : fill ps kw = none) :
    ∃ i p, ps[i]? = some p ∧ value (ps.take i) kw p = none := by
  induction ps generalizing kw with
  | nil => cases h
  | cons q ps ih =>
    unfold fill at h
    split at h
    · next hv => exact ⟨0, q, rfl, by simpa [value] using hv⟩
    · obtain ⟨i, p, hp, hnone⟩ := ih (Option.map_eq_none_iff.mp h)
      exact ⟨i + 1, p, by simpa using hp, by rwa [List.take_succ_cons, value_cons]⟩

/-- A positional argument goes to the first parameter, which no keyword may name. -/
theorem bind_cons_cons (p : Param ν β) (ps : List (Param ν β)) (a : β) (as : List β)
    (kw : AList fun _ : ν => β) :
    bind (p :: ps) ⟨a :: as, kw⟩ =
      if p.name ∈ kw then none else (bind ps ⟨as, kw⟩).map (a :: ·) := by
  unfold bind
  simp only [List.length_cons, Nat.add_lt_add_iff_right, List.take_succ_cons,
    List.drop_succ_cons, List.mem_cons, exists_eq_or_imp]
  by_cases hp : p.name ∈ kw
  · simp only [hp, true_or, if_true, ite_self]
  · simp only [hp, false_or, if_false]
    split_ifs
    · rfl
    · rfl
    · rcases fill (ps.drop as.length) kw with - | ⟨vs, left⟩
      · rfl
      · by_cases hleft : left.keys = [] <;> simp [hleft]

/-- Positional arguments for the first parameters: no keyword names one of these, and the others are
bound in the rest of the call. -/
theorem bind_append {first rest : List (Param ν β)} {xs as vs : List β}
    {kw : AList fun _ : ν => β} (h : xs.length = first.length) :
    bind (first ++ rest) ⟨xs ++ as, kw⟩ = some vs ↔
      (∀ p ∈ first, p.name ∉ kw) ∧ ∃ ws, bind rest ⟨as, kw⟩ = some ws ∧ vs = xs ++ ws := by
  induction first generalizing xs vs with
  | nil =>
    obtain rfl : xs = [] := List.length_eq_zero_iff.mp h
    simp
  | cons p first ih =>
    rcases xs with - | ⟨x, xs⟩
    · cases h
    · have hrest := fun vs => @ih xs vs (Nat.succ.inj h)
      rw [List.cons_append, List.cons_append, bind_cons_cons, List.forall_mem_cons]
      by_cases hp : p.name ∈ kw
      · simp [hp]
      · rw [if_neg hp, Option.map_eq_some_iff]
        constructor
        · rintro ⟨us, hus, rfl⟩
          obtain ⟨hfirst, ws, hws, rfl⟩ := (hrest us).mp hus
          exact ⟨⟨hp, hfirst⟩, ws, hws, rfl⟩
        · rintro ⟨⟨-, hfirst⟩, ws, hws, rfl⟩
          exact ⟨xs ++ ws, (hrest _).mpr ⟨hfirst, ws, hws, rfl⟩, rfl⟩

/-- A parameter without an argument, by position or by keyword, takes its default. -/
theorem bind_default {p : Param ν β} {ps : List (Param ν β)} {kw : AList fun _ : ν => β}
    {vs : List β} (h : p.name ∉ kw) :
    bind (p :: ps) ⟨[], kw⟩ = some vs ↔
      ∃ d ws, p.default = some d ∧ bind ps ⟨[], kw⟩ = some ws ∧ vs = d :: ws := by
  have herase : kw.erase p.name = kw := AList.ext (List.kerase_of_notMem_keys h)
  have hfill : ∀ qs, bind qs ⟨[], kw⟩ =
      match fill qs kw with
      | none => none
      | some (us, left) => if left.keys = [] then some us else none := fun qs => by
    simp [bind]
  rw [hfill, hfill, fill, AList.lookup_eq_none.mpr h, Option.none_or, herase]
  rcases p.default with - | d
  · simp
  · rcases fill ps kw with - | ⟨us, left⟩
    · simp
    · by_cases hleft : left.keys = [] <;> simp [hleft, eq_comm]

/-- The values that a call gives to the parameters. -/
structure Bound (params : List (Param ν β)) (c : Call ν β) (vs : List β) : Prop where
  length_eq : vs.length = params.length
  args_le : c.args.length ≤ params.length
  /-- A parameter with a positional argument takes it. -/
  positional : ∀ i, i < c.args.length → vs[i]? = c.args[i]?
  /-- Any other parameter takes what `value` says. -/
  others : ∀ i p, c.args.length ≤ i → params[i]? = some p →
    vs[i]? = value ((params.take i).drop c.args.length) c.kwargs p
  /-- No keyword names a parameter that has a positional argument. -/
  once : ∀ p ∈ params.take c.args.length, p.name ∉ c.kwargs
  /-- Every keyword names a parameter. -/
  named : ∀ n ∈ c.kwargs, n ∈ (params.drop c.args.length).map Param.name

/-- **What `bind` computes.** -/
theorem bind_iff {params : List (Param ν β)} {c : Call ν β} {vs : List β} :
    bind params c = some vs ↔ Bound params c vs := by
  have hdrop : ∀ i, (params.drop c.args.length)[i]? = params[c.args.length + i]? := fun i => by
    rw [List.getElem?_drop]
  have htake : ∀ i, (params.take (c.args.length + i)).drop c.args.length =
      (params.drop c.args.length).take i := fun i => by
    rw [List.drop_take, Nat.add_sub_cancel_left]
  constructor
  · intro h
    unfold bind at h
    split_ifs at h with hlen honce
    split at h
    · cases h
    · next ws left hfill =>
      split_ifs at h with hnone
      obtain rfl : c.args ++ ws = vs := Option.some.inj h
      obtain ⟨hleft, hws, hvalue⟩ := fill_eq_some hfill
      rw [List.length_drop] at hws
      refine ⟨?_, not_lt.mp hlen, ?_, ?_, ?_, ?_⟩
      · rw [List.length_append]
        omega
      · exact fun i hi => List.getElem?_append_left hi
      · intro i p hi hp
        obtain ⟨j, rfl⟩ := Nat.exists_eq_add_of_le hi
        rw [List.getElem?_append_right hi, Nat.add_sub_cancel_left, htake]
        exact hvalue j p (hdrop j ▸ hp)
      · exact fun p hp hin => honce ⟨p, hp, hin⟩
      · -- A keyword that names no parameter would be left over.
        intro n hn
        by_contra hnot
        have hin := AList.mem_keys.mp ((hleft n).mpr ⟨hn, hnot⟩)
        rw [hnone] at hin
        cases hin
  · rintro ⟨hlen, hle, hpositional, hothers, honce, hnamed⟩
    unfold bind
    rw [if_neg (not_lt.mpr hle), if_neg (fun ⟨p, hp, hin⟩ => honce p hp hin)]
    rcases hfill : fill (params.drop c.args.length) c.kwargs with - | ⟨ws, left⟩
    · -- A parameter without a value would leave a gap in the values.
      obtain ⟨i, p, hp, hnone⟩ := fill_eq_none hfill
      rw [hdrop] at hp
      have hgap := hothers _ p (Nat.le_add_right _ i) hp
      rw [htake, hnone, List.getElem?_eq_none_iff] at hgap
      have hin := (List.getElem?_eq_some_iff.mp hp).1
      omega
    · obtain ⟨hleft, hws, hvalue⟩ := fill_eq_some hfill
      have hnone : left.keys = [] := by
        refine List.eq_nil_iff_forall_not_mem.mpr fun n hn => ?_
        obtain ⟨hkw, hnot⟩ := (hleft n).mp (AList.mem_keys.mpr hn)
        exact hnot (hnamed n hkw)
      rw [List.length_drop] at hws
      -- The values agree place by place: arguments first, then what `fill` has found.
      have hall : c.args ++ ws = vs := by
        refine List.ext_getElem? fun i => ?_
        rcases Nat.lt_or_ge i c.args.length with hi | hi
        · rw [List.getElem?_append_left hi, hpositional i hi]
        · obtain ⟨j, rfl⟩ := Nat.exists_eq_add_of_le hi
          rw [List.getElem?_append_right hi, Nat.add_sub_cancel_left]
          rcases hp : params[c.args.length + j]? with - | p
          · rw [List.getElem?_eq_none_iff] at hp
            rw [List.getElem?_eq_none (by omega), List.getElem?_eq_none (by omega)]
          · rw [hothers _ p hi hp, htake]
            exact hvalue j p (hdrop j ▸ hp)
      simp only [hnone, hall, if_true]

/-- A call that gives every parameter its argument by position. -/
theorem bound_positional {params : List (Param ν β)} {args : List β}
    (h : args.length = params.length) : Bound params ⟨args, ∅⟩ args where
  length_eq := h
  args_le := Nat.le_of_eq h
  positional _ _ := rfl
  others i p hi hp := by
    have hlt := (List.getElem?_eq_some_iff.mp hp).1
    exact absurd hlt (not_lt.mpr (h ▸ hi))
  once p _ := AList.notMem_empty p.name
  named n hn := absurd hn (AList.notMem_empty n)

/-- The keywords of a call that names its arguments. -/
def keywords : List ν → List β → AList fun _ : ν => β
  | n :: names, v :: vs => (keywords names vs).insert n v
  | _, _ => ∅

/-- Only the names are keywords. -/
theorem mem_of_mem_keywords {names : List ν} {vs : List β} {n : ν} (h : n ∈ keywords names vs) :
    n ∈ names := by
  induction names generalizing vs with
  | nil => exact absurd h (AList.notMem_empty n)
  | cons m names ih =>
    cases vs with
    | nil => exact absurd h (AList.notMem_empty n)
    | cons v vs =>
      rcases (AList.mem_insert _).mp h with rfl | h
      · exact List.mem_cons_self
      · exact List.mem_cons_of_mem m (ih h)

/-- The keyword of a name has the value at its place. -/
theorem lookup_keywords {names : List ν} (hnodup : names.Nodup) {vs : List β} {i : ℕ} {n : ν}
    (hn : names[i]? = some n) : (keywords names vs).lookup n = vs[i]? := by
  induction names generalizing vs i with
  | nil => cases hn
  | cons m names ih =>
    obtain ⟨hm, hnodup⟩ := List.nodup_cons.mp hnodup
    cases vs with
    | nil => exact AList.lookup_empty n
    | cons v vs =>
      cases i with
      | zero =>
        obtain rfl : m = n := Option.some.inj hn
        exact AList.lookup_insert _
      | succ i =>
        have hne : n ≠ m := fun h => hm (h ▸ List.mem_of_getElem? hn)
        exact (AList.lookup_insert_ne hne).trans (ih hnodup hn)

/-- A call that gives the first parameters their arguments by position, and names the others. -/
theorem bound_keywords {first rest : List (Param ν β)} {args vs : List β}
    (hargs : args.length = first.length) (hvs : vs.length = rest.length)
    (hnodup : (rest.map Param.name).Nodup)
    (hfirst : ∀ n ∈ rest.map Param.name, n ∉ first.map Param.name) :
    Bound (first ++ rest) ⟨args, keywords (rest.map Param.name) vs⟩ (args ++ vs) where
  length_eq := by rw [List.length_append, List.length_append, hargs, hvs]
  args_le := by
    show args.length ≤ (first ++ rest).length
    rw [List.length_append]
    omega
  positional _ hi := List.getElem?_append_left hi
  others i p hi hp := by
    obtain ⟨j, rfl⟩ : ∃ j, i = args.length + j := Nat.exists_eq_add_of_le hi
    rw [hargs, List.getElem?_append_right (Nat.le_add_right _ _), Nat.add_sub_cancel_left] at hp
    show (args ++ vs)[args.length + j]? =
      value (((first ++ rest).take (args.length + j)).drop args.length) _ p
    rw [List.getElem?_append_right (Nat.le_add_right _ _), Nat.add_sub_cancel_left, hargs,
      List.take_length_add_append, List.drop_left]
    -- No parameter in front of it has the name, so the keyword is still there.
    have hname : (rest.map Param.name)[j]? = some p.name := by rw [List.getElem?_map, hp]; rfl
    have hnew : p.name ∉ (rest.take j).map Param.name := by
      have hin : p.name ∈ (rest.map Param.name).drop j :=
        List.mem_of_getElem? (by rw [List.getElem?_drop, Nat.add_zero, hname])
      rw [List.map_take]
      exact fun hbefore => List.disjoint_take_drop hnodup (Nat.le_refl j) hbefore hin
    have hlt : j < vs.length := hvs ▸ (List.getElem?_eq_some_iff.mp hp).1
    rw [value, if_neg hnew, lookup_keywords hnodup hname, List.getElem?_eq_getElem hlt,
      Option.some_or]
  once p hp := by
    rw [show Call.args ⟨args, keywords _ vs⟩ = args from rfl, hargs, List.take_left] at hp
    exact fun hin => hfirst p.name (mem_of_mem_keywords hin) (List.mem_map_of_mem hp)
  named n hn := by
    rw [show Call.args ⟨args, keywords _ vs⟩ = args from rfl, hargs, List.drop_left]
    exact mem_of_mem_keywords hn

/-- A parameter in front of the others takes the keyword of its name away from the one that had it,
which is left with its default. -/
theorem Bound.cons_keyword {params : List (Param ν β)} {kw : AList fun _ : ν => β} {vs : List β}
    (h : Bound params ⟨[], kw⟩ vs) {p : Param ν β} {v d : β} {k : ℕ}
    (hnodup : (params.map Param.name).Nodup) (hv : kw.lookup p.name = some v)
    (hk : params[k]? = some ⟨p.name, some d⟩) :
    Bound (p :: params) ⟨[], kw⟩ (v :: vs.set k d) where
  length_eq := by rw [List.length_cons, List.length_cons, List.length_set, h.length_eq]
  args_le := Nat.zero_le _
  positional i hi := absurd hi (Nat.not_lt_zero i)
  others i q _ hq := by
    cases i with
    | zero =>
      obtain rfl : p = q := Option.some.inj hq
      simp [value, hv]
    | succ i =>
      rw [List.getElem?_cons_succ] at hq
      show (vs.set k d)[i]? = value (p :: params.take i) kw q
      rw [value_cons]
      by_cases hi : i = k
      · -- The parameter that had the keyword before.
        obtain rfl : q = ⟨p.name, some d⟩ := Option.some.inj (hq.symm.trans (hi ▸ hk))
        have hlt : i < vs.length := h.length_eq ▸ (List.getElem?_eq_some_iff.mp hq).1
        rw [← hi, List.getElem?_set_self hlt, value]
        simp
      · -- Every other parameter has another name, and its keyword is not taken.
        have hname : q.name ≠ p.name := by
          intro hname
          have hlt : i < (params.map Param.name).length := by
            rw [List.length_map]
            exact (List.getElem?_eq_some_iff.mp hq).1
          refine hi ((List.getElem?_inj hlt hnodup).mp ?_)
          rw [List.getElem?_map, List.getElem?_map, hq, hk, Option.map_some, Option.map_some, hname]
        rw [List.getElem?_set_ne (Ne.symm hi), h.others i q (Nat.zero_le i) hq, value, value,
          AList.lookup_erase_ne hname]
        rfl
  once q hq := by cases hq
  named n hn := List.mem_cons_of_mem _ (h.named n hn)

/-- A keyword reaches the first parameter of its name alone: a parameter behind another one of its
name takes its positional argument or its default. -/
theorem Bound.value_eq {params : List (Param ν β)} {c : Call ν β} {vs : List β}
    (h : Bound params c vs) {i : ℕ} {p : Param ν β} (hp : params[i]? = some p) :
    vs[i]? = (c.args[i]?).or (value (params.take i) c.kwargs p) := by
  rcases Nat.lt_or_ge i c.args.length with hi | hi
  · rw [h.positional i hi, List.getElem?_eq_getElem hi, Option.some_or]
  · rw [h.others i p hi hp, List.getElem?_eq_none hi, Option.none_or]
    unfold value
    rw [List.drop_take]
    by_cases hrest : p.name ∈ ((params.drop c.args.length).take (i - c.args.length)).map Param.name
    · have hsub : ((params.drop c.args.length).take (i - c.args.length)).map Param.name ⊆
          (params.take i).map Param.name := by
        rw [← List.drop_take]
        exact List.map_subset _ (List.drop_subset _ _)
      rw [if_pos hrest, if_pos (hsub hrest)]
    · rw [if_neg hrest]
      split_ifs with hbefore
      · -- The other parameter of the name has a positional argument, so no keyword has the name.
        obtain ⟨q, hq, hname⟩ := List.mem_map.mp hbefore
        have hsplit : params.take i = params.take c.args.length ++
            (params.drop c.args.length).take (i - c.args.length) := by
          rw [← List.take_add, Nat.add_sub_cancel' hi]
        rw [hsplit, List.mem_append] at hq
        have hfirst := hq.resolve_right fun hin => hrest (hname ▸ List.mem_map_of_mem hin)
        have hnot := h.once q hfirst
        rw [hname, ← AList.lookup_eq_none] at hnot
        rw [hnot, Option.none_or]
      · rfl

end Binding
