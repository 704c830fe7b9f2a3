import AsioPy.Helper
import Mathlib.Data.List.Induction

/-!
# The modified completion tokens

`all_completion_tokens` of `helpers/options.hpp` lists the completion tokens with modifiers that the
module is built for. `apply_modifiers` tries every modifier of a list on a token, the binders with
every executor or slot, and goes on with the modifiers that are left; it calls itself through
`apply_modifier_step`. `apply_modifiers_enumerates` says that this gives every way of modifying the
token, and each once. Both rest on `mem_apply_modifiers_iff` and on `modified_injective`: the layers
around a token can be read off the result.
-/

namespace AsioPy

/-- A completion token type: one without modifiers, or one that is modified. -/
inductive TokenType (τ μ ε ς : Type*) where
  | token (t : τ)
  /-- `Modifier<Token>` -/
  | modifier (m : μ) (Token : TokenType τ μ ε ς)
  /-- `asio::executor_binder<Token, Executor>` -/
  | executor_binder (Token : TokenType τ μ ε ς) (Executor : ε)
  /-- `asio::cancellation_slot_binder<Token, CancellationSlot>` -/
  | cancellation_slot_binder (Token : TokenType τ μ ε ς) (CancellationSlot : ς)
  deriving DecidableEq

/-- A modifier, as it stands in `token_modifiers`. -/
inductive TokenModifier (μ : Type*) where
  /-- `Modifier<_>` -/
  | modifier (m : μ)
  /-- `asio::executor_binder<_, _>` -/
  | executor_binder
  /-- `asio::cancellation_slot_binder<_, _>` -/
  | cancellation_slot_binder
  deriving DecidableEq

variable {τ μ ε ς : Type*}

mutual

/-- `apply_modifier_step`: the modifier is applied, and the others to the result. -/
def apply_modifier_step [DecidableEq μ] (Token : TokenType τ μ ε ς)
    (ModifierToApply : TokenModifier μ) (AllModifiers : List (TokenModifier μ))
    (Executors : List ε) (CancellationSlots : List ς) : List (TokenType τ μ ε ς) :=
  match ModifierToApply with
  | .modifier m =>
    let modifier_rest := remove (.modifier m) AllModifiers
    let applied := .modifier m Token
    let rest := apply_modifiers applied modifier_rest Executors CancellationSlots
    push_front applied rest
  | .cancellation_slot_binder =>
    let modifier_rest := remove .cancellation_slot_binder AllModifiers
    let applied := CancellationSlots.map fun slot => .cancellation_slot_binder Token slot
    let rest := tuple_cat <| CancellationSlots.map fun slot =>
      apply_modifiers (.cancellation_slot_binder Token slot) modifier_rest Executors
        CancellationSlots
    tuple_cat [applied, rest]
  | .executor_binder =>
    let modifier_rest := remove .executor_binder AllModifiers
    let applied := Executors.map fun executor => .executor_binder Token executor
    let rest := tuple_cat <| Executors.map fun executor =>
      apply_modifiers (.executor_binder Token executor) modifier_rest Executors CancellationSlots
    tuple_cat [applied, rest]
termination_by ((remove ModifierToApply AllModifiers).length, 1)

/-- `apply_modifiers` -/
def apply_modifiers [DecidableEq μ] (Token : TokenType τ μ ε ς)
    (Modifiers : List (TokenModifier μ)) (Executors : List ε) (CancellationSlots : List ς) :
    List (TokenType τ μ ε ς) :=
  tuple_cat <| Modifiers.attach.map fun m =>
    apply_modifier_step Token m.val Modifiers Executors CancellationSlots
termination_by (Modifiers.length, 0)
decreasing_by
  -- The modifier is one of the list, so that removing it makes the list shorter.
  exact Prod.Lex.left _ _ (length_remove_lt m.property)

end

/-- `all_completion_tokens` -/
def all_completion_tokens [DecidableEq μ] (CompletionTokens : List (TokenType τ μ ε ς))
    (Modifiers : List (TokenModifier μ)) (Executors : List ε) (CancellationSlots : List ς) :
    List (TokenType τ μ ε ς) :=
  tuple_cat <| CompletionTokens.map fun token =>
    apply_modifiers token Modifiers Executors CancellationSlots

/-- One layer around a token: a modifier with what it binds. -/
inductive ModifierLayer (μ ε ς : Type*) where
  | modifier (m : μ)
  | executor_binder (Executor : ε)
  | cancellation_slot_binder (CancellationSlot : ς)
  deriving DecidableEq

/-- The modifier that makes the layer. -/
def ModifierLayer.modifies : ModifierLayer μ ε ς → TokenModifier μ
  | .modifier m => .modifier m
  | .executor_binder _ => .executor_binder
  | .cancellation_slot_binder _ => .cancellation_slot_binder

/-- The layers that a modifier can make. -/
def TokenModifier.layers (Executors : List ε) (CancellationSlots : List ς) :
    TokenModifier μ → List (ModifierLayer μ ε ς)
  | .modifier m => [.modifier m]
  | .executor_binder => Executors.map .executor_binder
  | .cancellation_slot_binder => CancellationSlots.map .cancellation_slot_binder

/-- The token with one more layer. -/
def TokenType.layer (Token : TokenType τ μ ε ς) : ModifierLayer μ ε ς → TokenType τ μ ε ς
  | .modifier m => .modifier m Token
  | .executor_binder Executor => .executor_binder Token Executor
  | .cancellation_slot_binder CancellationSlot => .cancellation_slot_binder Token CancellationSlot

/-- The token with the layers around it, the first one innermost. -/
def TokenType.modified (Token : TokenType τ μ ε ς) (layers : List (ModifierLayer μ ε ς)) :
    TokenType τ μ ε ς :=
  layers.foldl TokenType.layer Token

/-- A way of modifying a token: layers of pairwise different modifiers of the list, each with an
executor or a slot of the lists where it binds one. -/
structure Modification (Modifiers : List (TokenModifier μ)) (Executors : List ε)
    (CancellationSlots : List ς) (layers : List (ModifierLayer μ ε ς)) : Prop where
  ne_nil : layers ≠ []
  different : (layers.map ModifierLayer.modifies).Nodup
  listed : ∀ l ∈ layers, l.modifies ∈ Modifiers
  chosen : ∀ l ∈ layers, l ∈ l.modifies.layers Executors CancellationSlots

/-- A layer that a modifier can make is one of that modifier. -/
theorem TokenModifier.modifies_of_mem_layers {m : TokenModifier μ} {Executors : List ε}
    {CancellationSlots : List ς} {l : ModifierLayer μ ε ς}
    (h : l ∈ m.layers Executors CancellationSlots) : l.modifies = m := by
  cases m with
  | modifier m =>
    obtain rfl := List.mem_singleton.mp h
    rfl
  | executor_binder | cancellation_slot_binder =>
    obtain ⟨x, -, rfl⟩ := List.mem_map.mp h
    rfl

/-- The layers of a modifier are different. -/
theorem TokenModifier.nodup_layers {Executors : List ε} {CancellationSlots : List ς}
    (hexecutors : Executors.Nodup) (hslots : CancellationSlots.Nodup) (m : TokenModifier μ) :
    (m.layers Executors CancellationSlots).Nodup := by
  cases m with
  | modifier m => exact List.nodup_singleton _
  | executor_binder =>
    exact hexecutors.map fun _ _ h => ModifierLayer.executor_binder.inj h
  | cancellation_slot_binder =>
    exact hslots.map fun _ _ h => ModifierLayer.cancellation_slot_binder.inj h

/-- One layer and the token within it can be read off the result. -/
theorem TokenType.layer_inj {a b : TokenType τ μ ε ς} {x y : ModifierLayer μ ε ς}
    (h : a.layer x = b.layer y) : a = b ∧ x = y := by
  cases x <;> cases y <;> simp_all [TokenType.layer]

/-- How many layers there are around a token. -/
def TokenType.depth : TokenType τ μ ε ς → ℕ
  | .token _ => 0
  | .modifier _ Token => Token.depth + 1
  | .executor_binder Token _ => Token.depth + 1
  | .cancellation_slot_binder Token _ => Token.depth + 1

/-- A layer makes the token deeper. -/
theorem TokenType.depth_modified (Token : TokenType τ μ ε ς) (layers : List (ModifierLayer μ ε ς)) :
    (Token.modified layers).depth = Token.depth + layers.length := by
  induction layers generalizing Token with
  | nil => rfl
  | cons l layers ih =>
    have hlayer : (Token.layer l).depth = Token.depth + 1 := by cases l <;> rfl
    have hrest := ih (Token.layer l)
    rw [hlayer] at hrest
    show ((Token.layer l).modified layers).depth = _
    rw [hrest, List.length_cons]
    omega

/-- Token and layers can be read off the result, where the tokens are equally deep. -/
theorem TokenType.modified_inj {s t : TokenType τ μ ε ς} (hdepth : s.depth = t.depth)
    {a b : List (ModifierLayer μ ε ς)} (h : s.modified a = t.modified b) : s = t ∧ a = b := by
  have hlength : a.length = b.length := by
    have hmodified := congrArg TokenType.depth h
    rw [depth_modified, depth_modified] at hmodified
    omega
  induction a using List.reverseRecOn generalizing b with
  | nil =>
    obtain rfl := List.length_eq_zero_iff.mp hlength.symm
    exact ⟨h, rfl⟩
  | append_singleton a x ih =>
    rcases List.eq_nil_or_concat b with rfl | ⟨b, y, rfl⟩
    · simp at hlength
    · unfold TokenType.modified at h
      rw [List.foldl_append, List.concat_eq_append, List.foldl_append] at h
      obtain ⟨hinner, rfl⟩ := TokenType.layer_inj h
      obtain ⟨rfl, rfl⟩ := ih hinner (by simpa using hlength)
      exact ⟨rfl, List.concat_eq_append.symm⟩

/-- **The layers can be read off the result.** Two different ways of modifying a token make
different tokens. -/
theorem TokenType.modified_injective (Token : TokenType τ μ ε ς) :
    Function.Injective Token.modified :=
  fun _ _ h => (TokenType.modified_inj rfl h).2

variable [DecidableEq μ] {Executors : List ε} {CancellationSlots : List ς}

/-- A step: the layers that the modifier can make, and what follows on each. -/
theorem apply_modifier_step_eq (Token : TokenType τ μ ε ς) (m : TokenModifier μ)
    (AllModifiers : List (TokenModifier μ)) (Executors : List ε) (CancellationSlots : List ς) :
    apply_modifier_step Token m AllModifiers Executors CancellationSlots =
      (m.layers Executors CancellationSlots).map Token.layer ++
        (m.layers Executors CancellationSlots).flatMap fun l =>
          apply_modifiers (Token.layer l) (remove m AllModifiers) Executors CancellationSlots := by
  cases m <;>
    simp [apply_modifier_step, TokenModifier.layers, TokenType.layer, tuple_cat_eq_flatten,
      push_front, List.flatMap_def, Function.comp_def]

/-- All modifiers of the list are tried. -/
theorem apply_modifiers_eq (Token : TokenType τ μ ε ς) (Modifiers : List (TokenModifier μ))
    (Executors : List ε) (CancellationSlots : List ς) :
    apply_modifiers Token Modifiers Executors CancellationSlots =
      Modifiers.flatMap fun m =>
        apply_modifier_step Token m Modifiers Executors CancellationSlots := by
  rw [apply_modifiers, tuple_cat_eq_flatten, List.flatMap_def]
  exact congrArg _ (List.attach_map_val (f := fun m =>
    apply_modifier_step Token m Modifiers Executors CancellationSlots))

/-- What a modifier of the list gives: a layer, and what the other modifiers make of that. -/
theorem mem_apply_modifiers_step_iff {Token t : TokenType τ μ ε ς}
    {Modifiers : List (TokenModifier μ)} :
    t ∈ apply_modifiers Token Modifiers Executors CancellationSlots ↔
      ∃ m ∈ Modifiers, ∃ l ∈ m.layers Executors CancellationSlots, t = Token.layer l ∨
        t ∈ apply_modifiers (Token.layer l) (remove m Modifiers) Executors CancellationSlots := by
  rw [apply_modifiers_eq, List.mem_flatMap]
  simp only [apply_modifier_step_eq, List.mem_append, List.mem_map, List.mem_flatMap]
  constructor
  · rintro ⟨m, hm, ⟨l, hl, rfl⟩ | ⟨l, hl, ht⟩⟩
    · exact ⟨m, hm, l, hl, Or.inl rfl⟩
    · exact ⟨m, hm, l, hl, Or.inr ht⟩
  · rintro ⟨m, hm, l, hl, rfl | ht⟩
    · exact ⟨m, hm, Or.inl ⟨l, hl, rfl⟩⟩
    · exact ⟨m, hm, Or.inr ⟨l, hl, ht⟩⟩

/-- A way of modifying a token, by its innermost layer: the others are of the other modifiers. -/
theorem modification_cons_iff {Modifiers : List (TokenModifier μ)} {l : ModifierLayer μ ε ς}
    {layers : List (ModifierLayer μ ε ς)} :
    Modification Modifiers Executors CancellationSlots (l :: layers) ↔
      l.modifies ∈ Modifiers ∧ l ∈ l.modifies.layers Executors CancellationSlots ∧
        (layers = [] ∨
          Modification (remove l.modifies Modifiers) Executors CancellationSlots layers) := by
  constructor
  · rintro ⟨-, hdifferent, hlisted, hchosen⟩
    obtain ⟨hnew, hdifferent⟩ := List.nodup_cons.mp hdifferent
    refine ⟨hlisted l List.mem_cons_self, hchosen l List.mem_cons_self, ?_⟩
    rcases eq_or_ne layers [] with hnil | hne
    · exact Or.inl hnil
    · refine Or.inr ⟨hne, hdifferent, ?_, fun x hx => hchosen x (List.mem_cons_of_mem l hx)⟩
      intro x hx
      have hother : l.modifies ≠ x.modifies :=
        fun h => hnew (h ▸ List.mem_map_of_mem hx)
      rw [remove_eq_filter, List.mem_filter]
      exact ⟨hlisted x (List.mem_cons_of_mem l hx), by simpa using hother⟩
  · rintro ⟨hl, hlayer, hrest⟩
    -- In either case the other layers are of modifiers that are left.
    obtain ⟨hdifferent, hlisted, hchosen⟩ :
        (layers.map ModifierLayer.modifies).Nodup ∧
          (∀ x ∈ layers, x.modifies ∈ remove l.modifies Modifiers) ∧
          ∀ x ∈ layers, x ∈ x.modifies.layers Executors CancellationSlots := by
      rcases hrest with rfl | h
      · simp
      · exact ⟨h.different, h.listed, h.chosen⟩
    have hmem : ∀ x ∈ layers, x.modifies ∈ Modifiers ∧ l.modifies ≠ x.modifies := by
      intro x hx
      have hleft := hlisted x hx
      rw [remove_eq_filter, List.mem_filter] at hleft
      exact ⟨hleft.1, by simpa using hleft.2⟩
    refine ⟨List.cons_ne_nil l layers, List.nodup_cons.mpr ⟨?_, hdifferent⟩, ?_, ?_⟩
    · intro h
      obtain ⟨x, hx, heq⟩ := List.mem_map.mp h
      exact (hmem x hx).2 heq.symm
    · exact List.forall_mem_cons.mpr ⟨hl, fun x hx => (hmem x hx).1⟩
    · exact List.forall_mem_cons.mpr ⟨hlayer, hchosen⟩

/-- **The result has all ways of modifying the token**, and nothing else. -/
theorem mem_apply_modifiers_iff {Token t : TokenType τ μ ε ς} {Modifiers : List (TokenModifier μ)} :
    t ∈ apply_modifiers Token Modifiers Executors CancellationSlots ↔
      ∃ layers, Modification Modifiers Executors CancellationSlots layers ∧
        t = Token.modified layers := by
  induction hn : Modifiers.length using Nat.strongRecOn generalizing Token Modifiers with
  | _ n ih =>
    subst hn
    rw [mem_apply_modifiers_step_iff]
    constructor
    · rintro ⟨m, hm, l, hl, ht⟩
      obtain rfl := TokenModifier.modifies_of_mem_layers hl
      rcases ht with rfl | ht
      · exact ⟨[l], modification_cons_iff.mpr ⟨hm, hl, Or.inl rfl⟩, rfl⟩
      · obtain ⟨layers, hlayers, rfl⟩ := (ih _ (length_remove_lt hm) rfl).mp ht
        exact ⟨l :: layers, modification_cons_iff.mpr ⟨hm, hl, Or.inr hlayers⟩, rfl⟩
    · rintro ⟨layers, hlayers, rfl⟩
      rcases layers with - | ⟨l, layers⟩
      · exact absurd rfl hlayers.ne_nil
      · obtain ⟨hm, hl, hrest⟩ := modification_cons_iff.mp hlayers
        refine ⟨l.modifies, hm, l, hl, ?_⟩
        rcases hrest with rfl | hrest
        · exact Or.inl rfl
        · exact Or.inr ((ih _ (length_remove_lt hm) rfl).mpr ⟨layers, hrest, rfl⟩)

/-- What a step gives has a layer of its modifier innermost. -/
theorem exists_layer_of_mem_step {Token t : TokenType τ μ ε ς} {m : TokenModifier μ}
    {AllModifiers : List (TokenModifier μ)}
    (h : t ∈ apply_modifier_step Token m AllModifiers Executors CancellationSlots) :
    ∃ l layers, l.modifies = m ∧ t = Token.modified (l :: layers) := by
  rw [apply_modifier_step_eq, List.mem_append, List.mem_map, List.mem_flatMap] at h
  rcases h with ⟨l, hl, rfl⟩ | ⟨l, hl, ht⟩
  · exact ⟨l, [], TokenModifier.modifies_of_mem_layers hl, rfl⟩
  · obtain ⟨layers, -, rfl⟩ := mem_apply_modifiers_iff.mp ht
    exact ⟨l, layers, TokenModifier.modifies_of_mem_layers hl, rfl⟩

/-- A step gives no token twice, where what follows on each layer does not. -/
theorem nodup_apply_modifier_step (hexecutors : Executors.Nodup) (hslots : CancellationSlots.Nodup)
    {Token : TokenType τ μ ε ς} {m : TokenModifier μ} {AllModifiers : List (TokenModifier μ)}
    (hrest : ∀ l : ModifierLayer μ ε ς,
      (apply_modifiers (Token.layer l) (remove m AllModifiers) Executors
        CancellationSlots).Nodup) :
    (apply_modifier_step Token m AllModifiers Executors CancellationSlots).Nodup := by
  have hlayers := TokenModifier.nodup_layers hexecutors hslots m
  rw [apply_modifier_step_eq, List.nodup_append, List.nodup_flatMap]
  refine ⟨hlayers.map fun x y h => (TokenType.layer_inj h).2, ⟨fun l _ => hrest l, ?_⟩, ?_⟩
  · -- The innermost layers differ.
    refine hlayers.imp fun {x y} hxy t hx hy => hxy ?_
    obtain ⟨a, -, rfl⟩ := mem_apply_modifiers_iff.mp hx
    obtain ⟨b, -, hb⟩ := mem_apply_modifiers_iff.mp hy
    have hinj : x :: a = y :: b := Token.modified_injective hb
    exact (List.cons.inj hinj).1
  · -- There is one layer, or there are more.
    intro t ht u hu heq
    obtain ⟨x, -, rfl⟩ := List.mem_map.mp ht
    obtain ⟨y, -, hy⟩ := List.mem_flatMap.mp hu
    obtain ⟨b, hb, rfl⟩ := mem_apply_modifiers_iff.mp hy
    have hinj : [x] = y :: b := Token.modified_injective heq
    exact hb.ne_nil (List.cons.inj hinj).2.symm

/-- **No token is given twice.** -/
theorem nodup_apply_modifiers (hexecutors : Executors.Nodup) (hslots : CancellationSlots.Nodup)
    {Token : TokenType τ μ ε ς} {Modifiers : List (TokenModifier μ)}
    (hmodifiers : Modifiers.Nodup) :
    (apply_modifiers Token Modifiers Executors CancellationSlots).Nodup := by
  induction hn : Modifiers.length using Nat.strongRecOn generalizing Token Modifiers with
  | _ n ih =>
    subst hn
    rw [apply_modifiers_eq, List.nodup_flatMap]
    constructor
    · intro m hm
      refine nodup_apply_modifier_step hexecutors hslots fun l => ?_
      refine ih _ (length_remove_lt hm) ?_ rfl
      rw [remove_eq_filter]
      exact hmodifiers.filter _
    · -- The modifiers of the innermost layers differ.
      refine hmodifiers.imp fun {m m'} hne t ht ht' => hne ?_
      obtain ⟨l, a, rfl, rfl⟩ := exists_layer_of_mem_step ht
      obtain ⟨l', b, rfl, hb⟩ := exists_layer_of_mem_step ht'
      have hinj : l :: a = l' :: b := Token.modified_injective hb
      rw [(List.cons.inj hinj).1]

/-- **Every way of modifying a token, each once.** For every token, and modifiers, executors and
slots without duplicates: the recursion ends, and its result has exactly the tokens that come from
wrapping the token in one or more layers of pairwise different modifiers of the list, in any order,
with any executor or slot at each binder. Each of them is in the result once, and comes from one
choice of layers. -/
theorem apply_modifiers_enumerates (Token : TokenType τ μ ε ς) {Modifiers : List (TokenModifier μ)}
    (hmodifiers : Modifiers.Nodup) (hexecutors : Executors.Nodup)
    (hslots : CancellationSlots.Nodup) :
    (∀ t, t ∈ apply_modifiers Token Modifiers Executors CancellationSlots ↔
      ∃! layers, Modification Modifiers Executors CancellationSlots layers ∧
        t = Token.modified layers) ∧
      (apply_modifiers Token Modifiers Executors CancellationSlots).Nodup := by
  refine ⟨fun t => ?_, nodup_apply_modifiers hexecutors hslots hmodifiers⟩
  rw [mem_apply_modifiers_iff]
  constructor
  · rintro ⟨layers, hlayers, rfl⟩
    exact ⟨layers, ⟨hlayers, rfl⟩, fun other h => Token.modified_injective h.2.symm⟩
  · exact ExistsUnique.exists

/-- The modifiers of the module, with two executors and a slot. -/
theorem apply_modifiers_enumerates_token_modifiers :
    (∀ t, t ∈ apply_modifiers (.token "use_awaitable_t" : TokenType String String ℕ ℕ)
        [.executor_binder, .modifier "as_tuple_t", .cancellation_slot_binder] [0, 1] [0] ↔
      ∃! layers, Modification [.executor_binder, .modifier "as_tuple_t", .cancellation_slot_binder]
        [0, 1] [0] layers ∧ t = (TokenType.token "use_awaitable_t").modified layers) ∧
      (apply_modifiers (.token "use_awaitable_t" : TokenType String String ℕ ℕ)
        [.executor_binder, .modifier "as_tuple_t", .cancellation_slot_binder] [0, 1] [0]).Nodup :=
  apply_modifiers_enumerates (.token "use_awaitable_t") (by decide) (by decide) (by decide)

/-- `all_completion_tokens` has every way of modifying every token, and no unmodified one unless it
is another one modified. -/
theorem mem_all_completion_tokens_iff {CompletionTokens : List (TokenType τ μ ε ς)}
    {Modifiers : List (TokenModifier μ)} {t : TokenType τ μ ε ς} :
    t ∈ all_completion_tokens CompletionTokens Modifiers Executors CancellationSlots ↔
      ∃ token ∈ CompletionTokens, ∃ layers,
        Modification Modifiers Executors CancellationSlots layers ∧ t = token.modified layers := by
  unfold all_completion_tokens
  rw [tuple_cat_eq_flatten, List.mem_flatten]
  simp only [List.mem_map, ← mem_apply_modifiers_iff]
  constructor
  · rintro ⟨_, ⟨token, htoken, rfl⟩, ht⟩
    exact ⟨token, htoken, ht⟩
  · rintro ⟨token, htoken, ht⟩
    exact ⟨_, ⟨token, htoken, rfl⟩, ht⟩

/-- `all_completion_tokens` has no token twice, for different tokens without modifiers. -/
theorem nodup_all_completion_tokens {CompletionTokens : List τ}
    {Modifiers : List (TokenModifier μ)} (htokens : CompletionTokens.Nodup)
    (hmodifiers : Modifiers.Nodup) (hexecutors : Executors.Nodup)
    (hslots : CancellationSlots.Nodup) :
    (all_completion_tokens (CompletionTokens.map .token) Modifiers Executors
      CancellationSlots).Nodup := by
  unfold all_completion_tokens
  rw [tuple_cat_eq_flatten, ← List.flatMap_def, List.flatMap_map, List.nodup_flatMap]
  refine ⟨fun t _ => nodup_apply_modifiers hexecutors hslots hmodifiers, ?_⟩
  refine htokens.imp fun {s t} hne x hs ht => hne ?_
  obtain ⟨a, -, rfl⟩ := mem_apply_modifiers_iff.mp hs
  obtain ⟨b, -, hb⟩ := mem_apply_modifiers_iff.mp ht
  obtain ⟨htoken, -⟩ := TokenType.modified_inj (by rfl) hb
  exact TokenType.token.inj htoken

end AsioPy
