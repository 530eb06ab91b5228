import Mathlib.Data.List.Basic
import Mathlib.Tactic.Ring
import Mathlib.Tactic.Linarith

/-!
# Fields at fixed offsets

A record in a buffer is written field by field over a block of zeros and read back field by field.
`overwrite` is such a write and `slice` such a read: a read sees the write at its own place and
none of the writes beside it, and a buffer is determined by its fields.  The second half is the
little-endian representation of the numbers in the fields.
-/

namespace RtRuntime

open List

section Fields

variable {α : Type*}

/-- The `count` entries from `offset` on. -/
def slice (xs : List α) (offset count : ℕ) : List α := (xs.drop offset).take count

/-- `xs` with `data` copied over the entries from `offset` on. -/
def overwrite : List α → ℕ → List α → List α
  | [], _, _ => []
  | x :: xs, offset + 1, data => x :: overwrite xs offset data
  | x :: xs, 0, [] => x :: xs
  | _ :: xs, 0, y :: data => y :: overwrite xs 0 data

theorem getElem?_slice (xs : List α) (offset count index : ℕ) :
    (slice xs offset count)[index]? = if index < count then xs[offset + index]? else none := by
  simp [slice, List.getElem?_take, List.getElem?_drop]

variable {xs : List α} {offset : ℕ}

theorem length_slice {count : ℕ} (fits : offset + count ≤ xs.length) :
    (slice xs offset count).length = count := by
  simp only [slice, length_take, length_drop]
  omega

/-- A piece that is not cut short lies inside. -/
theorem fits_of_length_slice {count : ℕ} (positive : 0 < count)
    (whole : (slice xs offset count).length = count) : offset + count ≤ xs.length := by
  simp only [slice, length_take, length_drop] at whole
  omega

@[simp] theorem length_overwrite (xs : List α) (offset : ℕ) (data : List α) :
    (overwrite xs offset data).length = xs.length := by
  fun_induction overwrite xs offset data <;> simp_all

/-- A written entry where the write reaches, the old entry elsewhere. -/
theorem getElem?_overwrite (xs : List α) (offset : ℕ) (data : List α) (index : ℕ) :
    (overwrite xs offset data)[index]? =
      if offset ≤ index ∧ index < offset + data.length ∧ index < xs.length then
        data[index - offset]?
      else xs[index]? := by
  fun_induction overwrite xs offset data generalizing index with
  | case1 offset data => simp
  | case2 x xs offset data ih =>
    cases index with
    | zero => simp
    | succ index =>
      simp only [List.getElem?_cons_succ, ih, length_cons]
      congr 1
      · simp only [eq_iff_iff]
        omega
      · congr 1
        omega
  | case3 x xs => simp
  | case4 x xs y data ih =>
    cases index with
    | zero => simp
    | succ index =>
      simp only [List.getElem?_cons_succ, ih, length_cons]
      congr 1
      simp only [eq_iff_iff]
      omega

theorem slice_overwrite (xs : List α) (offset : ℕ) (data : List α)
    (fits : offset + data.length ≤ xs.length) :
    slice (overwrite xs offset data) offset data.length = data := by
  apply ext_getElem?
  intro index
  rw [getElem?_slice, getElem?_overwrite]
  by_cases inside : index < data.length
  · rw [if_pos inside, if_pos (by omega), Nat.add_sub_cancel_left]
  · rw [if_neg inside, List.getElem?_eq_none (by omega)]

theorem slice_overwrite_of_disjoint {data : List α} {place count : ℕ}
    (apart : offset + count ≤ place ∨ place + data.length ≤ offset) :
    slice (overwrite xs place data) offset count = slice xs offset count := by
  apply ext_getElem?
  intro index
  rw [getElem?_slice, getElem?_slice, getElem?_overwrite]
  by_cases inside : index < count
  · rw [if_pos inside, if_pos inside, if_neg (by omega)]
  · rw [if_neg inside, if_neg inside]

/-- A second write of the same length to the same place hides the first. -/
theorem overwrite_overwrite {first second : List α} (same : first.length = second.length) :
    overwrite (overwrite xs offset first) offset second = overwrite xs offset second := by
  apply ext_getElem?
  intro index
  simp only [getElem?_overwrite, length_overwrite, same]
  split
  · rfl
  · rfl

/-- A write leaves the entries after it as they were. -/
theorem drop_overwrite {data : List α} {place : ℕ} (after : place + data.length ≤ offset) :
    (overwrite xs place data).drop offset = xs.drop offset := by
  apply ext_getElem?
  intro index
  rw [List.getElem?_drop, List.getElem?_drop, getElem?_overwrite, if_neg (by omega)]

theorem drop_eq_slice_append (xs : List α) (offset count : ℕ) :
    xs.drop offset = slice xs offset count ++ xs.drop (offset + count) := by
  rw [slice, ← drop_drop, take_append_drop]

theorem slice_add (xs : List α) (offset first second : ℕ) :
    slice xs offset (first + second) = slice xs offset first ++ slice xs (offset + first) second := by
  rw [slice, slice, slice, take_add, drop_drop]

theorem slice_replicate {size count : ℕ} (x : α) (fits : offset + count ≤ size) :
    slice (replicate size x) offset count = replicate count x := by
  simp only [slice, drop_replicate, take_replicate]
  congr 1
  omega

/-- `xs` and `ys` agree on consecutive fields of the given widths. -/
def SameFields (xs ys : List α) : ℕ → List ℕ → Prop
  | _, [] => True
  | offset, width :: widths =>
    slice xs offset width = slice ys offset width ∧ SameFields xs ys (offset + width) widths

/-- Agreement field by field is agreement on the block of the fields. -/
theorem SameFields.slice_eq {ys : List α} {widths : List ℕ}
    (same : SameFields xs ys offset widths) :
    slice xs offset widths.sum = slice ys offset widths.sum := by
  induction widths generalizing offset with
  | nil => simp [slice]
  | cons width widths ih =>
    obtain ⟨first, rest⟩ := same
    rw [sum_cons, slice_add, slice_add, first, ih rest]

/-- A list is the slice before a place followed by the slice from it on. -/
theorem eq_of_slices {ys : List α} (offset : ℕ) (before : slice xs 0 offset = slice ys 0 offset)
    (after : xs.drop offset = ys.drop offset) :
    xs = ys := by
  have front : xs.take offset = ys.take offset := by simpa [slice] using before
  rw [← take_append_drop offset xs, front, after, take_append_drop]

end Fields

/-! ## Little-endian numbers -/

/-- The low `width` bytes of a number, least significant first. -/
def leBytes : ℕ → ℕ → List UInt8
  | 0, _ => []
  | width + 1, value => UInt8.ofNat value :: leBytes width (value / 256)

/-- The number that bytes spell, least significant first. -/
def leValue : List UInt8 → ℕ
  | [] => 0
  | byte :: bytes => byte.toNat + 256 * leValue bytes

variable (bytes : List UInt8)

@[simp] theorem length_leBytes (width value : ℕ) : (leBytes width value).length = width := by
  induction width generalizing value with
  | zero => rfl
  | succ width ih => simp [leBytes, ih]

theorem leValue_lt : leValue bytes < 256 ^ bytes.length := by
  induction bytes with
  | nil => simp [leValue]
  | cons byte bytes ih =>
    have small := byte.toNat_lt
    simp only [leValue, length_cons, pow_succ]
    omega

theorem leValue_leBytes {width value : ℕ} (fits : value < 256 ^ width) :
    leValue (leBytes width value) = value := by
  induction width generalizing value with
  | zero =>
    have none : value = 0 := by simpa using fits
    simp [leBytes, leValue, none]
  | succ width ih =>
    have rest : value / 256 < 256 ^ width := by
      rw [pow_succ] at fits
      omega
    simp only [leBytes, leValue, ih rest, UInt8.toNat_ofNat']
    omega

theorem leBytes_leValue : leBytes bytes.length (leValue bytes) = bytes := by
  induction bytes with
  | nil => rfl
  | cons byte bytes ih =>
    have small := byte.toNat_lt
    have low : UInt8.ofNat (byte.toNat + 256 * leValue bytes) = byte := by
      apply UInt8.toNat_inj.mp
      rw [UInt8.toNat_ofNat']
      omega
    have high : (byte.toNat + 256 * leValue bytes) / 256 = leValue bytes := by omega
    simp only [length_cons, leBytes, leValue, low, high, ih]

theorem leBytes_zero (width : ℕ) : leBytes width 0 = replicate width 0 := by
  induction width with
  | zero => rfl
  | succ width ih => simp [leBytes, ih, replicate_succ]

/-! ## Words in a buffer -/

/-- The 32-bit word at an offset, where the buffer reaches that far. -/
def loadU32 (offset : ℕ) : Option UInt32 :=
  if offset + 4 ≤ bytes.length then some (UInt32.ofNat (leValue (slice bytes offset 4))) else none

/-- The 64-bit word at an offset, where the buffer reaches that far. -/
def loadU64 (offset : ℕ) : Option UInt64 :=
  if offset + 8 ≤ bytes.length then some (UInt64.ofNat (leValue (slice bytes offset 8))) else none

/-- Writes a 32-bit word, or nothing where the buffer is too short. -/
def storeU32 (offset : ℕ) (value : UInt32) : List UInt8 :=
  if offset + 4 ≤ bytes.length then overwrite bytes offset (leBytes 4 value.toNat) else bytes

/-- Writes a 64-bit word, or nothing where the buffer is too short. -/
def storeU64 (offset : ℕ) (value : UInt64) : List UInt8 :=
  if offset + 8 ≤ bytes.length then overwrite bytes offset (leBytes 8 value.toNat) else bytes

@[simp] theorem length_storeU32 (offset : ℕ) (value : UInt32) :
    (storeU32 bytes offset value).length = bytes.length := by
  unfold storeU32
  split <;> simp

@[simp] theorem length_storeU64 (offset : ℕ) (value : UInt64) :
    (storeU64 bytes offset value).length = bytes.length := by
  unfold storeU64
  split <;> simp

variable {bytes : List UInt8}

theorem slice_storeU32 {offset : ℕ} (value : UInt32) (fits : offset + 4 ≤ bytes.length) :
    slice (storeU32 bytes offset value) offset 4 = leBytes 4 value.toNat := by
  rw [storeU32, if_pos fits]
  have written := slice_overwrite bytes offset (leBytes 4 value.toNat) (by simpa using fits)
  rwa [length_leBytes] at written

theorem slice_storeU64 {offset : ℕ} (value : UInt64) (fits : offset + 8 ≤ bytes.length) :
    slice (storeU64 bytes offset value) offset 8 = leBytes 8 value.toNat := by
  rw [storeU64, if_pos fits]
  have written := slice_overwrite bytes offset (leBytes 8 value.toNat) (by simpa using fits)
  rwa [length_leBytes] at written

theorem slice_storeU32_of_disjoint {place offset count : ℕ} {value : UInt32}
    (apart : offset + count ≤ place ∨ place + 4 ≤ offset) :
    slice (storeU32 bytes place value) offset count = slice bytes offset count := by
  unfold storeU32
  split
  · exact slice_overwrite_of_disjoint (by simpa using apart)
  · rfl

theorem slice_storeU64_of_disjoint {place offset count : ℕ} {value : UInt64}
    (apart : offset + count ≤ place ∨ place + 8 ≤ offset) :
    slice (storeU64 bytes place value) offset count = slice bytes offset count := by
  unfold storeU64
  split
  · exact slice_overwrite_of_disjoint (by simpa using apart)
  · rfl

theorem drop_storeU64 {place offset : ℕ} {value : UInt64} (after : place + 8 ≤ offset) :
    (storeU64 bytes place value).drop offset = bytes.drop offset := by
  unfold storeU64
  split
  · exact drop_overwrite (by simpa using after)
  · rfl

/-- The bytes of a number stand at an offset where the buffer reaches that far and the bytes there
spell the number. -/
theorem slice_eq_leBytes {offset width value : ℕ} (positive : 0 < width)
    (small : value < 256 ^ width) : slice bytes offset width = leBytes width value ↔
      offset + width ≤ bytes.length ∧ leValue (slice bytes offset width) = value := by
  constructor
  · intro same
    refine ⟨fits_of_length_slice positive ?_, ?_⟩
    · rw [same, length_leBytes]
    · rw [same, leValue_leBytes small]
  · rintro ⟨fits, rfl⟩
    have whole := leBytes_leValue (slice bytes offset width)
    rwa [length_slice fits, eq_comm] at whole

/-- A load succeeds with `value` exactly where the bytes of `value` stand. -/
theorem loadU32_eq_some {offset : ℕ} {value : UInt32} :
    loadU32 bytes offset = some value ↔ slice bytes offset 4 = leBytes 4 value.toNat := by
  rw [loadU32, Option.ite_none_right_eq_some, Option.some.injEq,
    slice_eq_leBytes (by decide) value.toNat_lt]
  refine and_congr_right fun fits => ?_
  have small := leValue_lt (slice bytes offset 4)
  rw [length_slice fits] at small
  rw [← UInt32.toNat_inj, UInt32.toNat_ofNat_of_lt' small]

/-- A load succeeds with `value` exactly where the bytes of `value` stand. -/
theorem loadU64_eq_some {offset : ℕ} {value : UInt64} :
    loadU64 bytes offset = some value ↔ slice bytes offset 8 = leBytes 8 value.toNat := by
  rw [loadU64, Option.ite_none_right_eq_some, Option.some.injEq,
    slice_eq_leBytes (by decide) value.toNat_lt]
  refine and_congr_right fun fits => ?_
  have small := leValue_lt (slice bytes offset 8)
  rw [length_slice fits] at small
  rw [← UInt64.toNat_inj, UInt64.toNat_ofNat_of_lt' small]

end RtRuntime
