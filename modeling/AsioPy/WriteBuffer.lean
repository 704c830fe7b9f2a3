import AsioPy.Write
import AsioPy.Lib.Strided

/-!
# The write functions for buffers

The `py::buffer` overloads of `write.hpp` ask the object for a strided export and hand asio
`asio::buffer(bi.ptr, bi.size)`: from the first item on, as many bytes as there are items. The
content of the object is the items in logical order, each with all its bytes. The two have the same
length only for items of one byte, and then `Strided.addresses_eq_run_iff` compares where the bytes
come from: `buffer_written_iff`.
-/

namespace AsioPy

open Strided

/-- `py::buffer_info`: a strided view of some memory. -/
structure BufferInfo where
  /-- The address of the first item. -/
  ptr : ℤ
  /-- The width of an item in bytes. -/
  itemsize : ℕ
  /-- The shape with the strides, which count bytes. -/
  dims : List Dim
  deriving DecidableEq, Repr

/-- `buffer_info.size`, the number of items. -/
def BufferInfo.size (bi : BufferInfo) : ℕ := Strided.size bi.dims

/-- An object that exports a buffer. -/
structure PyBuffer where
  /-- The memory that the export points into, by address. -/
  memory : ℤ → UInt8
  view : BufferInfo

/-- `buffer.request()` -/
def PyBuffer.request (b : PyBuffer) : BufferInfo := b.view

/-- `bytes(memoryview(obj))`, the content of the object: the bytes of its items in logical order. -/
def PyBuffer.tobytes (b : PyBuffer) : List UInt8 :=
  (addresses b.view.dims b.view.ptr).flatMap fun a =>
    (List.range b.view.itemsize).map fun j : ℕ => b.memory (a + j)

/-- `asio::buffer(ptr, n)` of a pointer into some memory. -/
def asio_buffer_at (memory : ℤ → UInt8) (ptr : ℤ) (n : ℕ) : List UInt8 :=
  (List.range n).map fun k : ℕ => memory (ptr + k)

/-- The buffer that the overloads for `py::buffer` hand to asio. -/
def buffer_data (b : PyBuffer) : List UInt8 :=
  let bi := b.request
  asio_buffer_at b.memory bi.ptr bi.size

/-- `p.write_some(buffer)` of a buffer. -/
def write_some_buffer (b : PyBuffer) : Handed := ⟨.write_some, .throwing, buffer_data b⟩

/-- `p.write_some(buffer, ec)` of a buffer. -/
def write_some_buffer_ec (b : PyBuffer) : Handed := ⟨.write_some, .error_code, buffer_data b⟩

/-- `p.async_write_some(buffer)` of a buffer. -/
def async_write_some_buffer (b : PyBuffer) : Handed := ⟨.write_some, .async, buffer_data b⟩

/-- `write(s, buffer)` of a buffer. -/
def write_buffer (b : PyBuffer) : Handed := ⟨.write, .throwing, buffer_data b⟩

/-- `write(s, buffer, ec)` of a buffer. -/
def write_buffer_ec (b : PyBuffer) : Handed := ⟨.write, .error_code, buffer_data b⟩

/-- The module's function for a buffer that starts `asio::async_write`. It is registered as
`async_write_some`. -/
def module_async_write_some_buffer (b : PyBuffer) : Handed := ⟨.write, .async, buffer_data b⟩

/-- The write functions of a buffer. -/
def buffer_writes : List (PyBuffer → Handed) :=
  [write_some_buffer, write_some_buffer_ec, async_write_some_buffer, write_buffer, write_buffer_ec,
    module_async_write_some_buffer]

/-- The six write functions of a buffer hand over the same bytes. -/
theorem buffer_writes_data {f : PyBuffer → Handed} (hf : f ∈ buffer_writes) (b : PyBuffer) :
    (f b).data = buffer_data b := by
  simp only [buffer_writes, List.mem_cons, List.not_mem_nil, or_false] at hf
  rcases hf with rfl | rfl | rfl | rfl | rfl | rfl <;> rfl

/-- What is handed over has as many bytes as the object has items. -/
@[simp] theorem length_buffer_data (b : PyBuffer) : (buffer_data b).length = b.view.size := by
  simp [buffer_data, asio_buffer_at, PyBuffer.request]

/-- The content has all bytes of each item. -/
theorem length_tobytes (b : PyBuffer) :
    b.tobytes.length = b.view.size * b.view.itemsize := by
  simp [PyBuffer.tobytes, List.length_flatMap, BufferInfo.size]

/-- The content of items of one byte, by their addresses. -/
theorem tobytes_of_itemsize_one {b : PyBuffer} (h : b.view.itemsize = 1) :
    b.tobytes = (addresses b.view.dims b.view.ptr).map b.memory := by
  rw [PyBuffer.tobytes, h, List.map_eq_flatMap]
  apply List.flatMap_congr
  intro a _
  simp

/-- What is handed over, by the addresses that the bytes come from. -/
theorem buffer_data_eq_run (b : PyBuffer) :
    buffer_data b = (run 1 b.view.size b.view.ptr).map b.memory := by
  simp only [buffer_data, asio_buffer_at, PyBuffer.request, run, List.map_map]
  apply List.map_congr_left
  intro k _
  simp

/-- The `k`-th item holds the byte that lies `k` bytes behind the first. -/
def PyBuffer.ItemInPlace (b : PyBuffer) (k : ℕ) : Prop :=
  ∀ a, (addresses b.view.dims b.view.ptr)[k]? = some a → b.memory a = b.memory (b.view.ptr + k)

/-- Items of one byte are handed over as they are exactly if each holds the byte in its place. -/
theorem buffer_data_eq_tobytes_iff {b : PyBuffer} (h : b.view.itemsize = 1) :
    buffer_data b = b.tobytes ↔ ∀ k < b.view.size, b.ItemInPlace k := by
  have hlen : (addresses b.view.dims b.view.ptr).length = b.view.size := length_addresses _ _
  rw [tobytes_of_itemsize_one h]
  constructor
  · intro heq k hk a ha
    have hget := congrArg (fun l => l[k]?) heq
    simp only [buffer_data, asio_buffer_at, PyBuffer.request, List.getElem?_map, ha,
      List.getElem?_range hk, Option.map_some, Option.some.injEq] at hget
    exact hget.symm
  · intro hplace
    apply List.ext_getElem
    · rw [length_buffer_data, List.length_map, hlen]
    · intro k hk hk'
      rw [length_buffer_data] at hk
      have ha := hplace k hk _ (List.getElem?_eq_getElem (hlen ▸ hk))
      simpa [buffer_data, asio_buffer_at, PyBuffer.request] using ha.symm

/-- Two lists of addresses that find the same bytes in every memory are the same. -/
theorem addresses_eq_of_memory {l l' : List ℤ}
    (h : ∀ memory : ℤ → UInt8, l.map memory = l'.map memory) : l = l' := by
  have hlen : l.length = l'.length := by simpa using congrArg List.length (h fun _ => 0)
  apply List.ext_getElem hlen
  intro k hk hk'
  -- The memory that marks the one address tells the two apart.
  have hmark := congrArg (fun bytes => bytes[k]?) (h fun a => if a = l'[k] then 1 else 0)
  simpa [hk, hk'] using hmark

/-- **When a buffer is written in full and in order.** The bytes that a write function hands to the
stream for a buffer are the content of the object exactly if there are no items, or the items have
one byte each and hold what lies in their places behind the first. They are the content whatever the
memory holds exactly if there are no items, or the items have one byte each and lie one behind the
other. -/
theorem buffer_written_iff {f : PyBuffer → Handed} (hf : f ∈ buffer_writes) (b : PyBuffer) :
    ((f b).data = b.tobytes ↔
        b.view.size = 0 ∨ b.view.itemsize = 1 ∧ ∀ k < b.view.size, b.ItemInPlace k) ∧
      ((∀ memory, (f ⟨memory, b.view⟩).data = (PyBuffer.mk memory b.view).tobytes) ↔
        b.view.size = 0 ∨ b.view.itemsize = 1 ∧ Packed 1 b.view.dims) := by
  -- By their lengths, the two differ where there are items of another width.
  have hwidth : ∀ b : PyBuffer, buffer_data b = b.tobytes →
      b.view.size = 0 ∨ b.view.itemsize = 1 := by
    intro b h
    have hlen := congrArg List.length h
    rw [length_buffer_data, length_tobytes] at hlen
    rcases Nat.eq_zero_or_pos b.view.size with hzero | hpos
    · exact Or.inl hzero
    · exact Or.inr (Nat.eq_of_mul_eq_mul_left hpos (by omega))
  have hempty : ∀ b : PyBuffer, b.view.size = 0 → buffer_data b = b.tobytes := by
    intro b h
    have hdata : buffer_data b = [] := List.eq_nil_of_length_eq_zero (by simp [h])
    have hbytes : b.tobytes = [] := List.eq_nil_of_length_eq_zero (by simp [length_tobytes, h])
    rw [hdata, hbytes]
  simp only [buffer_writes_data hf]
  constructor
  · constructor
    · intro h
      rcases hwidth b h with hzero | hone
      · exact Or.inl hzero
      · exact Or.inr ⟨hone, (buffer_data_eq_tobytes_iff hone).mp h⟩
    · rintro (hzero | ⟨hone, hplace⟩)
      · exact hempty b hzero
      · exact (buffer_data_eq_tobytes_iff hone).mpr hplace
  · constructor
    · intro h
      rcases hwidth ⟨b.memory, b.view⟩ (h b.memory) with hzero | hone
      · exact Or.inl hzero
      · have hrun : run 1 b.view.size b.view.ptr = addresses b.view.dims b.view.ptr := by
          apply addresses_eq_of_memory
          intro memory
          rw [← buffer_data_eq_run ⟨memory, b.view⟩, h memory]
          exact tobytes_of_itemsize_one hone
        rcases (addresses_eq_run_iff 1 b.view.dims b.view.ptr).mp hrun.symm with hzero | hpacked
        · exact Or.inl hzero
        · exact Or.inr ⟨hone, hpacked⟩
    · rintro (hzero | ⟨hone, hpacked⟩) memory
      · exact hempty ⟨memory, b.view⟩ hzero
      · rw [tobytes_of_itemsize_one (b := ⟨memory, b.view⟩) hone, addresses_of_packed hpacked]
        exact buffer_data_eq_run ⟨memory, b.view⟩

/-- A memory that holds the bytes 1, 2, 3 and so on from the address 0. -/
def counting_memory (a : ℤ) : UInt8 := UInt8.ofNat (a.toNat + 1)

/-- A `bytearray` of three bytes. -/
theorem buffer_written_iff_bytearray :
    ((write_buffer ⟨counting_memory, ⟨0, 1, [⟨3, 1⟩]⟩⟩).data =
          (PyBuffer.mk counting_memory ⟨0, 1, [⟨3, 1⟩]⟩).tobytes ↔
        BufferInfo.size ⟨0, 1, [⟨3, 1⟩]⟩ = 0 ∨ 1 = 1 ∧ ∀ k < BufferInfo.size ⟨0, 1, [⟨3, 1⟩]⟩,
          (PyBuffer.mk counting_memory ⟨0, 1, [⟨3, 1⟩]⟩).ItemInPlace k) ∧
      ((∀ memory, (write_buffer ⟨memory, ⟨0, 1, [⟨3, 1⟩]⟩⟩).data =
          (PyBuffer.mk memory ⟨0, 1, [⟨3, 1⟩]⟩).tobytes) ↔
        BufferInfo.size ⟨0, 1, [⟨3, 1⟩]⟩ = 0 ∨ 1 = 1 ∧ Packed 1 [⟨3, 1⟩]) :=
  buffer_written_iff (by simp [buffer_writes]) ⟨counting_memory, ⟨0, 1, [⟨3, 1⟩]⟩⟩

/-- Two items of two bytes, as in an `array('H', ...)`: half of the content is handed over. And
every second byte of a memory, as in `memoryview(b)[::2]`: the bytes between are handed over
instead. -/
theorem write_buffer_drops_bytes :
    (write_buffer ⟨counting_memory, ⟨0, 2, [⟨2, 2⟩]⟩⟩).data = [1, 2] ∧
      (PyBuffer.mk counting_memory ⟨0, 2, [⟨2, 2⟩]⟩).tobytes = [1, 2, 3, 4] ∧
      (write_buffer ⟨counting_memory, ⟨0, 1, [⟨2, 2⟩]⟩⟩).data = [1, 2] ∧
      (PyBuffer.mk counting_memory ⟨0, 1, [⟨2, 2⟩]⟩).tobytes = [1, 3] := by
  decide

end AsioPy
