import Mathlib.Data.List.Basic
import Mathlib.Data.List.Range
import Mathlib.Tactic.Linarith
import Mathlib.Tactic.Ring

/-!
# Strided arrays

An array of any number of dimensions whose items lie in memory at fixed distances, which may be
negative, zero or overlapping: in each dimension the distance is its stride. `addresses` lists where
the items are, in logical order, the last dimension varying fastest. `addresses_eq_run_iff` says
when they lie one behind the other.
-/

namespace Strided

/-- A dimension: how many items it has, and how far apart they are. -/
structure Dim where
  extent : ℕ
  stride : ℤ
  deriving DecidableEq, Repr

/-- The number of items. An array of no dimensions has one. -/
def size : List Dim → ℕ
  | [] => 1
  | d :: dims => d.extent * size dims

/-- The addresses of the items in logical order, from the address of the first. -/
def addresses : List Dim → ℤ → List ℤ
  | [], a => [a]
  | d :: dims, a => (List.range d.extent).flatMap fun i : ℕ => addresses dims (a + i * d.stride)

/-- The addresses of `n` items that lie one behind the other, `w` apart. -/
def run (w : ℤ) (n : ℕ) (a : ℤ) : List ℤ := (List.range n).map fun k : ℕ => a + k * w

/-- Each dimension has the stride of an array whose items lie one behind the other, `w` apart. The
stride of a dimension with one item is never used. -/
def Packed (w : ℤ) : List Dim → Prop
  | [] => True
  | d :: dims => (d.extent ≤ 1 ∨ d.stride = size dims * w) ∧ Packed w dims

/-- Each item has an address. -/
@[simp] theorem length_addresses (dims : List Dim) (a : ℤ) :
    (addresses dims a).length = size dims := by
  induction dims generalizing a with
  | nil => rfl
  | cons d dims ih => simp [addresses, size, List.length_flatMap, ih]

@[simp] theorem length_run (w : ℤ) (n : ℕ) (a : ℤ) : (run w n a).length = n := by
  simp [run]

/-- One run behind another. -/
theorem run_add (w : ℤ) (m n : ℕ) (a : ℤ) :
    run w (m + n) a = run w m a ++ run w n (a + m * w) := by
  simp only [run, List.range_add, List.map_append, List.map_map]
  congr 1
  apply List.map_congr_left
  intro k _
  simp only [Function.comp_apply, Nat.cast_add]
  ring

/-- As many runs of `m` items, one behind the other. -/
theorem run_mul (w : ℤ) (m n : ℕ) (a : ℤ) :
    run w (n * m) a = (List.range n).flatMap fun i : ℕ => run w m (a + i * (m * w)) := by
  induction n with
  | zero => simp [run]
  | succ n ih =>
    have hlast : a + ((n * m : ℕ) : ℤ) * w = a + n * (m * w) := by
      push_cast
      ring
    rw [Nat.succ_mul, run_add, ih, List.range_succ, List.flatMap_append, List.flatMap_singleton,
      hlast]

/-- The first item is at the address of the array. -/
theorem head_addresses {dims : List Dim} (h : size dims ≠ 0) (a : ℤ) :
    ∃ rest, addresses dims a = a :: rest := by
  induction dims generalizing a with
  | nil => exact ⟨[], rfl⟩
  | cons d dims ih =>
    obtain ⟨hd, hdims⟩ := Nat.mul_ne_zero_iff.mp h
    obtain ⟨n, hn⟩ := Nat.exists_eq_succ_of_ne_zero hd
    obtain ⟨rest, hrest⟩ := ih hdims a
    rw [addresses, hn, List.range_succ_eq_map, List.flatMap_cons, Nat.cast_zero, zero_mul, add_zero,
      hrest, List.cons_append]
    exact ⟨_, rfl⟩

/-- The addresses of a packed array run on. -/
theorem addresses_of_packed {w : ℤ} {dims : List Dim} (h : Packed w dims) (a : ℤ) :
    addresses dims a = run w (size dims) a := by
  induction dims generalizing a with
  | nil => simp [addresses, run, size]
  | cons d dims ih =>
    obtain ⟨hd, hdims⟩ := h
    rw [size, run_mul, addresses]
    apply List.flatMap_congr
    intro i hi
    rw [ih hdims]
    rcases hd with hd | hd
    · -- The only item of the dimension is its first.
      obtain rfl : i = 0 := by
        have := List.mem_range.mp hi
        omega
      simp
    · rw [hd]

/-- An array of a dimension with items starts with what one of them is. -/
theorem addresses_cons {d : Dim} {dims : List Dim} {n : ℕ} (hd : d.extent = n + 1) (a : ℤ) :
    addresses (d :: dims) a =
      addresses dims a ++ addresses (⟨n, d.stride⟩ :: dims) (a + d.stride) := by
  rw [addresses, hd, List.range_succ_eq_map, List.flatMap_cons, addresses, List.flatMap_map]
  congr 1
  · simp
  · apply List.flatMap_congr
    intro i _
    congr 1
    push_cast
    ring

/-- **When the items lie one behind the other.** The addresses of an array run on exactly if it has
no items or each dimension has the stride for it. -/
theorem addresses_eq_run_iff (w : ℤ) (dims : List Dim) (a : ℤ) :
    addresses dims a = run w (size dims) a ↔ size dims = 0 ∨ Packed w dims := by
  constructor
  · intro h
    by_contra hne
    obtain ⟨hsize, hpacked⟩ := not_or.mp hne
    apply hpacked
    clear hne hpacked
    induction dims generalizing a with
    | nil => exact trivial
    | cons d dims ih =>
      obtain ⟨hd, hdims⟩ := Nat.mul_ne_zero_iff.mp hsize
      obtain ⟨n, hn⟩ := Nat.exists_eq_succ_of_ne_zero hd
      rw [addresses_cons hn, size, hn, Nat.succ_mul, Nat.add_comm, run_add] at h
      obtain ⟨hfirst, hrest⟩ := List.append_inj h (by simp)
      refine ⟨?_, ih a hfirst hdims⟩
      -- The second item of the dimension stands where the run goes on.
      rcases n with - | n
      · exact Or.inl (by omega)
      · have hmul : n.succ * size dims ≠ 0 := Nat.mul_ne_zero n.succ_ne_zero hdims
        have hblock : size (⟨n + 1, d.stride⟩ :: dims) ≠ 0 := hmul
        obtain ⟨rest, hhead⟩ := head_addresses hblock (a + d.stride)
        obtain ⟨m, hm⟩ := Nat.exists_eq_succ_of_ne_zero hmul
        rw [hhead, hm, run, List.range_succ_eq_map, List.map_cons, Nat.cast_zero, zero_mul,
          add_zero] at hrest
        have hstride := (List.cons.inj hrest).1
        exact Or.inr (by linarith)
  · rintro (h | h)
    · have hnil : addresses dims a = [] := List.eq_nil_of_length_eq_zero (by simp [h])
      rw [hnil, h]
      rfl
    · exact addresses_of_packed h a

end Strided
