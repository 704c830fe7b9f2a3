import AsioPy.Lib.Munch

/-!
# Scope and name of a type

`split_name_and_scope_match` cuts the name of a C++ type, as the compiler prints it, into its scope
and what is left. It reads the name with a 32-bit counter, over identifier characters and `::`, and
stops at the first other character. `split_name_and_scope_match_correct` says where it cuts: at the
last `::` of the longest prefix that is made of these. `split_loop_diverges` is why the length of
the name has to be bounded. `get_sanitized_type_name` makes the name fit for an attribute.
-/

namespace AsioPy

open Munch
open scoped Computability

/-- `std::string_view`, by its characters. -/
abbrev StringView := List UInt8

/-- The bytes of an ASCII text. -/
def ascii (text : String) : StringView := text.toList.map Char.toUInt8

/-- `std::out_of_range`, thrown for a position behind the end. -/
structure OutOfRange where
  pos : ℕ
  size : ℕ
  deriving DecidableEq, Repr

/-- `std::string_view::npos` -/
def npos : ℕ := 2 ^ 64 - 1

/-- `string_view::substr` -/
def substr (s : StringView) (pos n : ℕ) : Except OutOfRange StringView :=
  if s.length < pos then .error ⟨pos, s.length⟩ else .ok ((s.drop pos).take n)

/-- `is_alpha`. A character outside ASCII, negative in C++, is in none of the ranges either way. -/
def is_alpha (c : UInt8) : Bool :=
  ('A'.toUInt8 ≤ c && 'Z'.toUInt8 ≥ c) || ('a'.toUInt8 ≤ c && 'z'.toUInt8 ≥ c) ||
    ('0'.toUInt8 ≤ c && '9'.toUInt8 ≥ c) || c == '_'.toUInt8

/-- The text `"::"`. -/
def separator : StringView := [':'.toUInt8, ':'.toUInt8]

/-- The loop of `split_name_and_scope_match`, for at most `fuel` tests of its condition. The
variables `scope_end` and `name_begin` at the end. -/
def split_loop (name : StringView) :
    ℕ → UInt32 → ℕ → ℕ → Option (Except OutOfRange (ℕ × ℕ))
  | 0, _, _, _ => none
  | fuel + 1, i, scope_end, name_begin =>
    if h : i.toNat < name.length then
      if is_alpha name[i.toNat] then split_loop name fuel (i + 1) scope_end name_begin
      else
        match substr name i.toNat npos with
        | .error e => some (.error e)
        | .ok rest =>
          if separator.isPrefixOf rest then
            -- `i += 1`, and then the `i++` of the loop.
            split_loop name fuel (i + 1 + 1) i.toNat (i + 2).toNat
          else some (.ok (scope_end, name_begin))
    else some (.ok (scope_end, name_begin))

/-- `split_name_and_scope_match`: the scope and the unscoped name. -/
def split_name_and_scope_match (fuel : ℕ) (name : StringView) :
    Option (Except OutOfRange (StringView × StringView)) :=
  (split_loop name fuel 0 0 0).map fun r => do
    let (scope_end, name_begin) ← r
    let scope ← substr name 0 scope_end
    let unscoped ← substr name name_begin (name.length - name_begin)
    return (scope, unscoped)

/-- What the loop reads: an identifier character, or a complete `::`. -/
def pieces : Language UInt8 := {w | (∃ c, is_alpha c ∧ w = [c]) ∨ w = separator}

/-- The name is cut at the last `::` of the longest prefix that is made of identifier characters and
complete `::`, or not at all if there is none. -/
def CutAtLastScope (name scope unscoped : StringView) : Prop :=
  ∃ p, Longest pieces name p ∧
    ((LastAt separator p scope.length ∧ name = scope ++ separator ++ unscoped) ∨
      (∀ k, ¬ OccursAt separator p k) ∧ scope = [] ∧ unscoped = name)

/-- A colon is not an identifier character. -/
theorem is_alpha_colon : is_alpha ':'.toUInt8 = false := by decide

/-- The separator has two characters. -/
@[simp] theorem length_separator : separator.length = 2 := rfl

/-- It is not empty. -/
theorem separator_ne_nil : separator ≠ [] := by decide

/-- It has no identifier character. -/
theorem notMem_separator {c : UInt8} (hc : is_alpha c) : c ∉ separator := by
  intro h
  obtain rfl : c = ':'.toUInt8 := by simpa [separator] using h
  rw [is_alpha_colon] at hc
  cases hc

/-- No piece begins another. -/
theorem prefixFree_pieces : PrefixFree pieces where
  ne_nil w hw := by
    rcases hw with ⟨c, -, rfl⟩ | rfl
    · exact List.cons_ne_nil c []
    · exact separator_ne_nil
  eq_of_prefix u hu v hv huv := by
    rcases hu with ⟨c, hc, rfl⟩ | rfl <;> rcases hv with ⟨d, hd, rfl⟩ | rfl
    · exact huv.eq_of_length rfl
    · exact absurd (huv.subset (List.mem_singleton_self c)) (notMem_separator hc)
    · have hle := huv.length_le
      simp at hle
    · rfl

/-- What is made of pieces has identifier characters and colons only. -/
theorem mem_of_mem_pieces {p : StringView} (hp : p ∈ pieces∗) {c : UInt8} (hc : c ∈ p) :
    is_alpha c ∨ c = ':'.toUInt8 := by
  obtain ⟨L, rfl, hL⟩ := Language.mem_kstar.mp hp
  obtain ⟨w, hw, hcw⟩ := List.mem_flatten.mp hc
  rcases hL w hw with ⟨d, hd, rfl⟩ | rfl
  · rw [List.mem_singleton] at hcw
    exact Or.inl (hcw ▸ hd)
  · exact Or.inr (by simpa [separator] using hcw)

/-- Taking the rest of a name that is not too long. -/
theorem substr_rest {name : StringView} {i n : ℕ} (hi : i ≤ name.length)
    (hn : name.length - i ≤ n) : substr name i n = .ok (name.drop i) := by
  unfold substr
  rw [if_neg (by omega), List.take_of_length_le (by simpa using hn)]

/-- Where the loop is: it has read the pieces `p`, and the variables tell the last `::` in them. -/
structure Scanned (name p : StringView) (scope_end name_begin : ℕ) : Prop where
  is_start : p <+: name
  made_of_pieces : p ∈ pieces∗
  scope : (LastAt separator p scope_end ∧ name_begin = scope_end + 2) ∨
    (∀ k, ¬ OccursAt separator p k) ∧ scope_end = 0 ∧ name_begin = 0

/-- The loop starts with nothing read. -/
theorem Scanned.start (name : StringView) : Scanned name [] 0 0 where
  is_start := List.nil_prefix
  made_of_pieces := Language.nil_mem_kstar pieces
  scope := by
    refine Or.inr ⟨fun k hk => ?_, rfl, rfl⟩
    have hle := hk.le separator_ne_nil
    simp at hle

/-- An identifier character is read. -/
theorem Scanned.read_alpha {name p : StringView} {scope_end name_begin : ℕ} {c : UInt8}
    (h : Scanned name p scope_end name_begin) (hc : is_alpha c) (hname : p ++ [c] <+: name) :
    Scanned name (p ++ [c]) scope_end name_begin where
  is_start := hname
  made_of_pieces := append_mem_kstar h.made_of_pieces (Or.inl ⟨c, hc, rfl⟩)
  scope := by
    have hnot := notMem_separator hc
    simpa only [lastAt_append_singleton hnot, occursAt_append_singleton hnot] using h.scope

/-- A `::` is read. -/
theorem Scanned.read_separator {name p : StringView} {scope_end name_begin : ℕ}
    (h : Scanned name p scope_end name_begin) (hname : p ++ separator <+: name) :
    Scanned name (p ++ separator) p.length (p.length + 2) where
  is_start := hname
  made_of_pieces := append_mem_kstar h.made_of_pieces (Or.inr rfl)
  scope := Or.inl ⟨lastAt_append_self separator_ne_nil p, rfl⟩

/-- The counter does not wrap around within a name that is not too long. -/
theorem toNat_add_of_le {name : StringView} (hlen : name.length < 2 ^ 32) {i n : UInt32}
    (h : i.toNat + n.toNat ≤ name.length) : (i + n).toNat = i.toNat + n.toNat := by
  rw [UInt32.toNat_add, Nat.mod_eq_of_lt (by omega)]

/-- The loop stops where no piece begins. -/
theorem Scanned.longest {name : StringView} {i scope_end name_begin : ℕ}
    (h : Scanned name (name.take i) scope_end name_begin)
    (hstuck : ∀ w ∈ pieces, ¬ w <+: name.drop i) : Longest pieces name (name.take i) := by
  have hlongest := longest_of_stuck prefixFree_pieces h.made_of_pieces hstuck
  rwa [List.take_append_drop] at hlongest

/-- The loop passes over an identifier character. -/
theorem split_loop_alpha {name : StringView} {i : UInt32} {c : UInt8} (hc : is_alpha c)
    (hstart : [c] <+: name.drop i.toNat) (fuel scope_end name_begin : ℕ) :
    split_loop name (fuel + 1) i scope_end name_begin =
      split_loop name fuel (i + 1) scope_end name_begin := by
  have hroom := hstart.length_le
  rw [List.length_singleton, List.length_drop] at hroom
  have hlt : i.toNat < name.length := by omega
  have hget : name[i.toNat] = c := by
    rw [List.drop_eq_getElem_cons hlt, List.cons_prefix_cons] at hstart
    exact hstart.1.symm
  rw [split_loop, dif_pos hlt, hget, if_pos hc]

/-- The loop passes over a `::`, and notes where it is. -/
theorem split_loop_separator {name : StringView} (hlen : name.length < 2 ^ 32) {i : UInt32}
    (hstart : separator <+: name.drop i.toNat) (fuel scope_end name_begin : ℕ) :
    split_loop name (fuel + 1) i scope_end name_begin =
      split_loop name fuel (i + 1 + 1) i.toNat (i + 2).toNat := by
  have hroom := hstart.length_le
  rw [length_separator, List.length_drop] at hroom
  have hlt : i.toNat < name.length := by omega
  have hget : name[i.toNat] = ':'.toUInt8 := by
    have hcolons := hstart
    rw [List.drop_eq_getElem_cons hlt, separator, List.cons_prefix_cons] at hcolons
    exact hcolons.1.symm
  have hrest : substr name i.toNat npos = .ok (name.drop i.toNat) :=
    substr_rest hlt.le (by unfold npos; omega)
  rw [split_loop, dif_pos hlt, hget, is_alpha_colon, hrest]
  simp only [List.isPrefixOf_iff_prefix.mpr hstart, Bool.false_eq_true, if_true, if_false]

/-- The loop ends where no piece begins: at the end of the name, or at another character. -/
theorem split_loop_stuck {name : StringView} (hlen : name.length < 2 ^ 32) {i : UInt32}
    (hstuck : ∀ w ∈ pieces, ¬ w <+: name.drop i.toNat) (fuel scope_end name_begin : ℕ) :
    split_loop name (fuel + 1) i scope_end name_begin = some (.ok (scope_end, name_begin)) := by
  by_cases hlt : i.toNat < name.length
  · have hother : ¬ is_alpha name[i.toNat] := by
      intro hc
      refine hstuck [name[i.toNat]] (Or.inl ⟨_, hc, rfl⟩) ?_
      rw [List.drop_eq_getElem_cons hlt]
      exact List.prefix_append [name[i.toNat]] _
    have hrest : substr name i.toNat npos = .ok (name.drop i.toNat) :=
      substr_rest hlt.le (by unfold npos; omega)
    rw [split_loop, dif_pos hlt, if_neg hother, hrest]
    simp only [List.isPrefixOf_iff_prefix, hstuck separator (Or.inr rfl), if_false]
  · rw [split_loop, dif_neg hlt]

/-- What is read from there on begins with a piece that begins there. -/
theorem take_add_of_prefix {name w : StringView} {i : ℕ} (h : w <+: name.drop i) :
    name.take (i + w.length) = name.take i ++ w := by
  rw [List.take_add, ← List.prefix_iff_eq_take.mp h]

/-- One test of the loop's condition, and the body. -/
theorem split_loop_cases {name : StringView} (hlen : name.length < 2 ^ 32) {i : UInt32}
    {scope_end name_begin : ℕ} (hi : i.toNat ≤ name.length)
    (h : Scanned name (name.take i.toNat) scope_end name_begin) :
    (Longest pieces name (name.take i.toNat) ∧
      ∀ fuel, split_loop name (fuel + 1) i scope_end name_begin =
        some (.ok (scope_end, name_begin))) ∨
    ∃ i' se nb, i.toNat < i'.toNat ∧ i'.toNat ≤ name.length ∧
      Scanned name (name.take i'.toNat) se nb ∧
      ∀ fuel, split_loop name (fuel + 1) i scope_end name_begin =
        split_loop name fuel i' se nb := by
  by_cases hstuck : ∀ w ∈ pieces, ¬ w <+: name.drop i.toNat
  · exact Or.inl ⟨h.longest hstuck, fun fuel => split_loop_stuck hlen hstuck fuel _ _⟩
  · right
    push Not at hstuck
    obtain ⟨w, hw, hstart⟩ := hstuck
    have hroom : i.toNat + w.length ≤ name.length := by
      have hle := hstart.length_le
      rw [List.length_drop] at hle
      omega
    have htake := take_add_of_prefix hstart
    have hread : name.take i.toNat ++ w <+: name := htake ▸ List.take_prefix _ _
    rcases hw with ⟨c, hc, rfl⟩ | rfl
    · -- An identifier character.
      have hnext : (i + 1).toNat = i.toNat + 1 := toNat_add_of_le hlen hroom
      refine ⟨i + 1, scope_end, name_begin, by omega, hnext ▸ hroom, ?_,
        fun fuel => split_loop_alpha hc hstart fuel _ _⟩
      rw [hnext]
      exact htake ▸ h.read_alpha hc hread
    · -- A complete `::`.
      have hbegin : (i + 2).toNat = i.toNat + 2 := toNat_add_of_le hlen hroom
      have hnext : i + 1 + 1 = i + 2 := UInt32.add_assoc i 1 1
      refine ⟨i + 1 + 1, i.toNat, i.toNat + 2, by rw [hnext]; omega, ?_, ?_, ?_⟩
      · rw [hnext, hbegin]
        exact hroom
      · have hscanned := h.read_separator hread
        rw [List.length_take_of_le hi] at hscanned
        rw [hnext, hbegin]
        exact htake ▸ hscanned
      · intro fuel
        rw [split_loop_separator hlen hstart, hbegin]

/-- The loop reads the longest prefix made of pieces, and ends. -/
theorem split_loop_eq {name : StringView} (hlen : name.length < 2 ^ 32) {i : UInt32}
    {scope_end name_begin : ℕ} (hi : i.toNat ≤ name.length)
    (h : Scanned name (name.take i.toNat) scope_end name_begin) :
    ∃ p se nb, Scanned name p se nb ∧ Longest pieces name p ∧
      ∀ fuel, name.length - i.toNat < fuel →
        split_loop name fuel i scope_end name_begin = some (.ok (se, nb)) := by
  induction hk : name.length - i.toNat using Nat.strong_induction_on
    generalizing i scope_end name_begin with
  | _ k ih =>
    rcases split_loop_cases hlen hi h with ⟨hlongest, hstop⟩ | ⟨i', se, nb, hlt, hi', h', hstep⟩
    · refine ⟨_, scope_end, name_begin, h, hlongest, ?_⟩
      intro fuel hfuel
      obtain ⟨fuel, rfl⟩ := Nat.exists_eq_succ_of_ne_zero (n := fuel) (by omega)
      exact hstop fuel
    · obtain ⟨p, se', nb', hscanned, hlongest, hrun⟩ :=
        ih (name.length - i'.toNat) (by omega) hi' h' rfl
      refine ⟨p, se', nb', hscanned, hlongest, ?_⟩
      intro fuel hfuel
      obtain ⟨fuel, rfl⟩ := Nat.exists_eq_succ_of_ne_zero (n := fuel) (by omega)
      rw [Nat.succ_eq_add_one, hstep fuel]
      exact hrun fuel (by omega)

/-- What the loop has found is where the name is cut. -/
theorem Scanned.cut {name p : StringView} {scope_end name_begin : ℕ}
    (h : Scanned name p scope_end name_begin) (hlongest : Longest pieces name p) :
    scope_end ≤ name.length ∧ name_begin ≤ name.length ∧
      CutAtLastScope name (name.take scope_end) (name.drop name_begin) := by
  have hp := h.is_start.length_le
  rcases h.scope with ⟨hlast, rfl⟩ | ⟨hnone, rfl, rfl⟩
  · have hle := hlast.1.le separator_ne_nil
    rw [length_separator] at hle
    refine ⟨by omega, by omega, p, hlongest, Or.inl ?_⟩
    rw [List.length_take_of_le (by omega)]
    refine ⟨hlast, ?_⟩
    -- The `::` of the prefix is one of the name.
    have hsep : separator <+: name.drop scope_end := hlast.1.trans (h.is_start.drop scope_end)
    obtain ⟨rest, hrest⟩ := hsep
    have hdrop : name.drop (scope_end + 2) = rest := by
      rw [← List.drop_drop, ← hrest]
      rfl
    rw [hdrop, List.append_assoc, hrest, List.take_append_drop]
  · exact ⟨by omega, by omega, p, hlongest, Or.inr ⟨hnone, rfl, rfl⟩⟩

/-- What stands before the cut has identifier characters and colons only. -/
theorem CutAtLastScope.mem_scope {name scope unscoped : StringView}
    (h : CutAtLastScope name scope unscoped) {c : UInt8} (hc : c ∈ scope) :
    is_alpha c ∨ c = ':'.toUInt8 := by
  obtain ⟨p, ⟨hp, hpieces, -⟩, ⟨hlast, hname⟩ | ⟨-, rfl, -⟩⟩ := h
  · have hle := hlast.1.le separator_ne_nil
    have hscope : scope <+: name := by
      rw [hname, List.append_assoc]
      exact List.prefix_append scope _
    have hstart : scope <+: p := List.prefix_of_prefix_length_le hscope hp (by omega)
    exact mem_of_mem_pieces hpieces (hstart.subset hc)
  · cases hc

/-- There is one place where the name is to be cut. -/
theorem CutAtLastScope.unique {name scope unscoped scope' unscoped' : StringView}
    (h : CutAtLastScope name scope unscoped) (h' : CutAtLastScope name scope' unscoped') :
    scope = scope' ∧ unscoped = unscoped' := by
  obtain ⟨p, hp, hcut⟩ := h
  obtain ⟨q, hq, hcut'⟩ := h'
  obtain rfl : p = q := hp.unique hq
  rcases hcut with ⟨hlast, hname⟩ | ⟨hnone, rfl, rfl⟩
  · rcases hcut' with ⟨hlast', hname'⟩ | ⟨hnone', -, -⟩
    · have hlength : scope.length = scope'.length :=
        Nat.le_antisymm (hlast'.2 _ hlast.1) (hlast.2 _ hlast'.1)
      rw [hname, List.append_assoc, List.append_assoc] at hname'
      obtain ⟨hscope, hrest⟩ := List.append_inj hname' hlength
      exact ⟨hscope, List.append_cancel_left hrest⟩
    · exact absurd hlast.1 (hnone' _)
  · rcases hcut' with ⟨hlast', -⟩ | ⟨-, rfl, rfl⟩
    · exact absurd hlast'.1 (hnone _)
    · exact ⟨rfl, rfl⟩

/-- The function ends, and cuts the name where it is to be cut. -/
theorem split_name_and_scope_match_cut {name : StringView} (hlen : name.length < 2 ^ 32) :
    ∃ scope unscoped,
      (∀ fuel, name.length < fuel →
        split_name_and_scope_match fuel name = some (.ok (scope, unscoped))) ∧
      CutAtLastScope name scope unscoped := by
  obtain ⟨p, se, nb, hscanned, hlongest, hrun⟩ :=
    split_loop_eq hlen (i := 0) (Nat.zero_le _) (Scanned.start name)
  obtain ⟨hse, hnb, hcut⟩ := hscanned.cut hlongest
  refine ⟨name.take se, name.drop nb, ?_, hcut⟩
  intro fuel hfuel
  have hloop := hrun fuel (by simpa using hfuel)
  have hscope : substr name 0 se = .ok (name.take se) := by
    unfold substr
    rw [if_neg (by omega), List.drop_zero]
  have hunscoped : substr name nb (name.length - nb) = .ok (name.drop nb) :=
    substr_rest hnb le_rfl
  unfold split_name_and_scope_match
  rw [hloop]
  show some (do
    let scope ← substr name 0 se
    let unscoped ← substr name nb (name.length - nb)
    return (scope, unscoped)) = _
  rw [hscope, hunscoped]
  rfl

/-- **The name is cut at the right place.** For every name of fewer than `2^32` characters the loop
ends and no `substr` is out of range; the scope and the unscoped name are what is before and after
the last `::` of the longest prefix made of identifier characters and complete `::`, and nothing and
the whole name where there is none. A `::` behind any other character is not where it is cut. -/
theorem split_name_and_scope_match_correct (name : StringView) (hlen : name.length < 2 ^ 32) :
    ∃ scope unscoped,
      (∀ fuel, name.length < fuel →
        split_name_and_scope_match fuel name = some (.ok (scope, unscoped))) ∧
      CutAtLastScope name scope unscoped ∧
      ∀ u v c, name = u ++ separator ++ v → c ∈ u → is_alpha c = false → c ≠ ':'.toUInt8 →
        (scope, unscoped) ≠ (u, v) := by
  obtain ⟨scope, unscoped, hrun, hcut⟩ := split_name_and_scope_match_cut hlen
  refine ⟨scope, unscoped, hrun, hcut, ?_⟩
  intro u v c _ hc halpha hcolon heq
  obtain ⟨rfl, -⟩ := Prod.mk.inj heq
  rcases hcut.mem_scope hc with h | h
  · rw [halpha] at h
    cases h
  · exact hcolon h

/-- The name of a template is not cut within its arguments. -/
theorem split_name_and_scope_match_template :
    ∃ scope unscoped,
      (∀ fuel, (ascii "std::vector<a::b>").length < fuel →
        split_name_and_scope_match fuel (ascii "std::vector<a::b>") =
          some (.ok (scope, unscoped))) ∧
      CutAtLastScope (ascii "std::vector<a::b>") scope unscoped ∧
      ∀ u v c, ascii "std::vector<a::b>" = u ++ separator ++ v → c ∈ u → is_alpha c = false →
        c ≠ ':'.toUInt8 → (scope, unscoped) ≠ (u, v) :=
  split_name_and_scope_match_correct (ascii "std::vector<a::b>") (by decide)

/-- The names that stop or begin at a colon. -/
example :
    split_name_and_scope_match 10 (ascii "a:::b") = some (.ok (ascii "a", ascii ":b")) ∧
      split_name_and_scope_match 10 (ascii "::x") = some (.ok ([], ascii "x")) ∧
      split_name_and_scope_match 10 (ascii "a::") = some (.ok (ascii "a", [])) ∧
      split_name_and_scope_match 10 (ascii "a:b") = some (.ok ([], ascii "a:b")) := by decide

/-- **Where the bound on the length comes from.** The counter wraps around in a name that begins
with `2^32` identifier characters, and the loop does not end. -/
theorem split_loop_diverges {name : StringView} (hlen : 2 ^ 32 ≤ name.length)
    (halpha : ∀ c ∈ name.take (2 ^ 32), is_alpha c) (fuel : ℕ) :
    split_name_and_scope_match fuel name = none := by
  have hloop : ∀ (i : UInt32) scope_end name_begin,
      split_loop name fuel i scope_end name_begin = none := by
    induction fuel with
    | zero => exact fun _ _ _ => rfl
    | succ fuel ih =>
      intro i scope_end name_begin
      have hi : i.toNat < 2 ^ 32 := i.toNat_lt
      have hlt : i.toNat < name.length := by omega
      have hmem : name[i.toNat] ∈ name.take (2 ^ 32) :=
        List.mem_take_iff_getElem.mpr ⟨i.toNat, by omega, rfl⟩
      rw [split_loop, dif_pos hlt, if_pos (halpha _ hmem)]
      exact ih (i + 1) scope_end name_begin
  unfold split_name_and_scope_match
  rw [hloop]
  rfl

section Types

variable {τ : Type*} (scoped_name : τ → StringView)

/-- `split_name_and_scope`, where `scoped_name` is the name that the compiler prints for a type. -/
def split_name_and_scope (fuel : ℕ) (T : τ) :
    Option (Except OutOfRange (StringView × StringView)) :=
  split_name_and_scope_match fuel (scoped_name T)

/-- `unscoped_name` -/
def unscoped_name (fuel : ℕ) (T : τ) : Option (Except OutOfRange StringView) :=
  (split_name_and_scope scoped_name fuel T).map fun r => r.map Prod.snd

/-- `scope_of_type` -/
def scope_of_type (fuel : ℕ) (T : τ) : Option (Except OutOfRange StringView) :=
  (split_name_and_scope scoped_name fuel T).map fun r => r.map Prod.fst

/-- Scope and name of a type are the two parts of its printed name. -/
theorem scope_of_type_cut {T : τ} (hlen : (scoped_name T).length < 2 ^ 32) :
    ∃ scope unscoped, CutAtLastScope (scoped_name T) scope unscoped ∧
      ∀ fuel, (scoped_name T).length < fuel →
        scope_of_type scoped_name fuel T = some (.ok scope) ∧
          unscoped_name scoped_name fuel T = some (.ok unscoped) := by
  obtain ⟨scope, unscoped, hrun, hcut⟩ := split_name_and_scope_match_cut hlen
  refine ⟨scope, unscoped, hcut, ?_⟩
  intro fuel hfuel
  unfold scope_of_type unscoped_name split_name_and_scope
  rw [hrun fuel hfuel]
  exact ⟨rfl, rfl⟩

/-- `get_sanitized_type_name`, where `std_string` has its specialisation. -/
def get_sanitized_type_name [DecidableEq τ] (std_string : τ) (T : τ) : StringView :=
  -- The array of the source ends with the null character.
  let cs := ascii ":<>(), " ++ [0]
  if T = std_string then ascii "str"
  else (scoped_name T).map fun c => if c ∈ cs then '_'.toUInt8 else c

end Types

end AsioPy
