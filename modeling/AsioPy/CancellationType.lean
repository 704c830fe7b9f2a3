import AsioPy.Lib.Mealy
import AsioPy.Lib.ObjectStore

/-!
# The named cancellation types

`register_cancellation_type` registers the masks of `asio::cancellation_type` as the attributes of a
Python class, each attribute one object, with eight operators on them. Five of the operators create
their result. The other three are C++ compound assignments, which write to the mask inside the left
operand's object and return a copy, so what else refers to that object sees the write.

`Undisturbed` is what a statement should leave as it is: the five constants, and under an operator
assignment every reference but its target. `Harmless` is when it does. `undisturbed_iff_harmless`
compares them at one statement, from the `value_*` lemmas of `ObjectStore`, and
`cancellation_types_constant_iff` along every program.
-/

namespace AsioPy

/-- The attributes of the Python class `cancellation_type`. -/
inductive CancellationName where
  | none | terminal | partial_ | total | all
  deriving DecidableEq, Repr

/-- The masks of `asio::cancellation_type`. -/
def CancellationName.mask : CancellationName → BitVec 32
  | .none => 0
  | .terminal => 1
  | .partial_ => 2
  | .total => 4
  | .all => 0xFFFFFFFF

/-- What a statement reads or binds: a name of the program, or an attribute of the class. -/
inductive CancellationRef where
  | name (x : String)
  | attr (a : CancellationName)
  deriving DecidableEq, Repr

/-- The binary operators, each bound twice: as itself and as an operator assignment. -/
inductive MaskOp where
  | and | or | xor
  deriving DecidableEq, Repr

/-- The C++ operator on the masks. -/
def MaskOp.eval : MaskOp → BitVec 32 → BitVec 32 → BitVec 32
  | .and, l, r => l &&& r
  | .or, l, r => l ||| r
  | .xor, l, r => l ^^^ r

/-- The statements of a program that uses cancellation types. -/
inductive CancellationStmt where
  /-- `t = r` -/
  | assign (t r : CancellationRef)
  /-- `bool(r)` -/
  | bool (r : CancellationRef)
  /-- `t = l op r` -/
  | binary (op : MaskOp) (t l r : CancellationRef)
  /-- `t = ~r` -/
  | invert (t r : CancellationRef)
  /-- `t op= r` -/
  | inplace (op : MaskOp) (t r : CancellationRef)
  deriving DecidableEq, Repr

/-- The objects of a program, and what its names and the attributes refer to. -/
abbrev CancellationStore := ObjectStore CancellationRef (BitVec 32)

/-- The order in which `register_cancellation_type` stores the values, one object each. -/
def CancellationName.index : CancellationName → ℕ
  | .none => 0
  | .terminal => 1
  | .partial_ => 2
  | .total => 3
  | .all => 4

/-- The store after the import of the module: five objects, an attribute for each and no name. -/
def register_cancellation_type : CancellationStore where
  objs := [CancellationName.mask .none, CancellationName.mask .terminal,
    CancellationName.mask .partial_, CancellationName.mask .total, CancellationName.mask .all]
  env
    | .name _ => none
    | .attr a => some a.index
  env_lt r i h := by
    cases r with
    | name x => cases h
    | attr a =>
      obtain rfl := Option.some.inj h
      cases a <;> decide

/-- A statement of a program, with what `bool` answers. A statement that reads an unbound name is
not enabled: Python raises `NameError` and the program ends. -/
def CancellationStmt.exec : Mealy CancellationStore CancellationStmt (Option Bool) where
  step s
    | .assign t r => (s.assign t r).map fun s' => (none, s')
    | .bool r => (s.value r).map fun v => (some (v != 0), s)
    | .binary op t l r => do
      let v ← s.value l
      let w ← s.value r
      return (none, s.create t (op.eval v w))
    | .invert t r => (s.value r).map fun v => (none, s.create t (~~~v))
    | .inplace op t r => do
      let v ← s.value t
      let w ← s.value r
      let s' ← s.mutate t (op.eval v w)
      return (none, s')

/-- Every attribute of the class denotes its own mask. -/
def Constants (s : CancellationStore) : Prop := ∀ a, s.value (.attr a) = some a.mask

/-- A statement leaves the constants as they are, and an operator assignment leaves what is seen
through every reference but its target as it is. -/
def Undisturbed (s : CancellationStore) (c : CancellationStmt) (s' : CancellationStore) : Prop :=
  Constants s' ∧ match c with
    | .inplace _ t _ => ∀ r, r ≠ t → s'.value r = s.value r
    | _ => True

/-- The value is one that `t` may be given: an attribute takes its own mask only. -/
def Suits (t : CancellationRef) (v : Option (BitVec 32)) : Prop :=
  ∀ a, t = .attr a → v = some a.mask

/-- The value that a statement gives to its target. -/
def CancellationStmt.result (s : CancellationStore) : CancellationStmt → Option (BitVec 32)
  | .assign _ r => s.value r
  | .bool _ => none
  | .binary op _ l r => do return op.eval (← s.value l) (← s.value r)
  | .invert _ r => (s.value r).map fun v => ~~~v
  | .inplace op t r => do return op.eval (← s.value t) (← s.value r)

/-- The reference that a statement binds. -/
def CancellationStmt.target : CancellationStmt → Option CancellationRef
  | .assign t _ | .binary _ t _ _ | .invert t _ | .inplace _ t _ => some t
  | .bool _ => none

/-- A statement gives an attribute no other mask than its own, and an operator assignment leaves the
value of its left operand as it is where another reference shares the object. -/
def Harmless (s : CancellationStore) (c : CancellationStmt) : Prop :=
  (∀ t, c.target = some t → Suits t (c.result s)) ∧ match c with
    | .inplace _ t _ => ∀ r, r ≠ t → s.env r = s.env t → c.result s = s.value t
    | _ => True

/-- What is seen after a statement that creates or rebinds: its target sees the result. -/
theorem constants_rebind {s s' : CancellationStore} {t : CancellationRef} {v : Option (BitVec 32)}
    (hs : Constants s) (h : ∀ r, s'.value r = if r = t then v else s.value r) :
    Constants s' ↔ Suits t v := by
  constructor
  · rintro hs' a rfl
    rw [← hs' a, h, if_pos rfl]
  · intro hv a
    rw [h]
    split
    · next ht => exact hv a ht.symm
    · exact hs a

/-- **One statement.** Where the constants are in place, a statement disturbs nothing exactly when
it is harmless. -/
theorem undisturbed_iff_harmless {s s' : CancellationStore} {c : CancellationStmt}
    {o : Option Bool} (hs : Constants s) (h : CancellationStmt.exec.step s c = some (o, s')) :
    Undisturbed s c s' ↔ Harmless s c := by
  unfold Undisturbed Harmless
  cases c with
  | assign t r =>
    obtain ⟨u, hu, ⟨⟩⟩ := Option.map_eq_some_iff.mp h
    have hval := ObjectStore.value_assign hu
    simpa [CancellationStmt.target, CancellationStmt.result] using constants_rebind hs hval
  | bool r =>
    obtain ⟨v, hv, ⟨⟩⟩ := Option.map_eq_some_iff.mp h
    simpa [CancellationStmt.target] using hs
  | binary op t l r =>
    obtain ⟨v, hv, h⟩ := Option.bind_eq_some_iff.mp h
    obtain ⟨w, hw, ⟨⟩⟩ := Option.bind_eq_some_iff.mp h
    have hval := ObjectStore.value_create s t (op.eval v w)
    simpa [CancellationStmt.target, CancellationStmt.result, hv, hw] using constants_rebind hs hval
  | invert t r =>
    obtain ⟨v, hv, ⟨⟩⟩ := Option.map_eq_some_iff.mp h
    have hval := ObjectStore.value_create s t (~~~v)
    simpa [CancellationStmt.target, CancellationStmt.result, hv] using constants_rebind hs hval
  | inplace op t r =>
    obtain ⟨v, hv, h⟩ := Option.bind_eq_some_iff.mp h
    obtain ⟨w, hw, h⟩ := Option.bind_eq_some_iff.mp h
    obtain ⟨u, hu, ⟨⟩⟩ := Option.bind_eq_some_iff.mp h
    have hval := ObjectStore.value_mutate hu
    have hres : CancellationStmt.result s (.inplace op t r) = some (op.eval v w) := by
      simp [CancellationStmt.result, hv, hw]
    show (Constants s' ∧ ∀ x, x ≠ t → s'.value x = s.value x) ↔
      (∀ x, some t = some x → Suits x (CancellationStmt.result s (.inplace op t r))) ∧
        ∀ x, x ≠ t → s.env x = s.env t → CancellationStmt.result s (.inplace op t r) = s.value t
    rw [hres, ObjectStore.mutate_frame_iff hu]
    refine and_congr_left fun hshared => ?_
    -- Where the other references see no change, the statement is one that rebinds its target.
    have hframe := (ObjectStore.mutate_frame_iff hu).mpr hshared
    have hrebind : ∀ x, s'.value x = if x = t then some (op.eval v w) else s.value x := by
      intro x
      split
      · next hx => rw [hval, if_pos (Or.inl hx)]
      · next hx => exact hframe x hx
    simpa using constants_rebind hs hrebind

/-- After the import the attributes denote their masks. -/
theorem constants_register : Constants register_cancellation_type := by
  intro a
  cases a <;> rfl

/-- **The cancellation types stay constants, exactly along harmless programs.** For every program,
all its statements leave every attribute with its mask, and every operator assignment leaves what
is seen through the other references, exactly when every statement is harmless. -/
theorem cancellation_types_constant_iff (program : List CancellationStmt) :
    CancellationStmt.exec.Along (fun s c _ s' => Undisturbed s c s') register_cancellation_type
        program ↔
      CancellationStmt.exec.Meets Harmless register_cancellation_type program := by
  apply Mealy.along_iff (I := Constants) _ _ program _ constants_register
  · intro s c o s' hs hc h
    exact ((undisturbed_iff_harmless hs h).mpr hc).1
  · intro s c o s' hs h
    exact undisturbed_iff_harmless hs h

/-- `x = cancellation_type.terminal; x |= cancellation_type.total` changes the attribute `terminal`
to the mask `5`. -/
theorem inplace_or_changes_terminal :
    ¬ CancellationStmt.exec.Along (fun s c _ s' => Undisturbed s c s') register_cancellation_type
        [.assign (.name "x") (.attr .terminal), .inplace .or (.name "x") (.attr .total)] := by
  intro h
  obtain ⟨-, h⟩ := h none _ rfl
  obtain ⟨⟨hconst, -⟩, -⟩ := h none _ rfl
  have hterminal := hconst .terminal
  exact absurd hterminal (by decide)

end AsioPy
