import RtRuntime.SnapshotCodec

/-!
# The fields of an artifact

What the two artifact formats share: identifiers in fields of fixed size, sizes that are added up
with checks, and the checksum that leaves out its own field.
-/

namespace RtRuntime

open List

/-! ## Identifiers -/

/-- A text in its fixed-size field. -/
def padName (text : List UInt8) : List UInt8 :=
  text ++ List.replicate (identifierCapacity - text.length) 0

variable {text : List UInt8}

theorem validIdentifier_iff :
    validIdentifier text ↔
      text ≠ [] ∧ text.length < identifierCapacity ∧ ∀ byte ∈ text, identifierCharacter byte := by
  simp [validIdentifier, and_assoc]

theorem identifierCharacter_ne_zero {byte : UInt8} (ok : identifierCharacter byte) : byte ≠ 0 := by
  rintro rfl
  exact absurd ok (by decide)

theorem length_padName (valid : validIdentifier text) :
    (padName text).length = identifierCapacity := by
  have short := (validIdentifier_iff.mp valid).2.1
  simp only [padName, length_append, length_replicate]
  omega

/-- The text of a padded field is found again. -/
theorem takeWhile_padName (valid : validIdentifier text) :
    (padName text).takeWhile (· ≠ 0) = text := by
  obtain ⟨-, -, characters⟩ := validIdentifier_iff.mp valid
  rw [padName, takeWhile_append_of_pos]
  · simp
  · intro byte member
    simpa using identifierCharacter_ne_zero (characters byte member)

/-- A text that is followed by a zero and then by zeros only. -/
theorem eq_text_append_zeros {field : List UInt8}
    (shorter : (field.takeWhile (· ≠ 0)).length ≠ field.length)
    (zeros : (field.drop ((field.takeWhile (· ≠ 0)).length + 1)).all (· = 0)) :
    field = field.takeWhile (· ≠ 0) ++
      replicate (field.length - (field.takeWhile (· ≠ 0)).length) 0 := by
  induction field with
  | nil => simp at shorter
  | cons byte rest ih =>
    by_cases zero : byte = 0
    · subst zero
      have all : rest = replicate rest.length 0 := by
        rw [eq_replicate_iff]
        exact ⟨rfl, by simpa using zeros⟩
      simpa [replicate_succ] using all
    · have keep : (byte :: rest).takeWhile (· ≠ 0) = byte :: rest.takeWhile (· ≠ 0) := by
        simp [zero]
      rw [keep] at shorter zeros ⊢
      simp only [length_cons, cons_append, List.cons.injEq, true_and,
        Nat.add_sub_add_right]
      exact ih (by simpa using shorter) (by simpa using zeros)

/-- A field is read as a text exactly when it is that text followed by zeros. -/
theorem fixedLength_eq_some {field : List UInt8} (width : field.length = identifierCapacity)
    {length : ℕ} :
    fixedLength field = some length ↔
      ∃ text, validIdentifier text ∧ text.length = length ∧ field = padName text := by
  constructor
  · intro found
    simp only [fixedLength] at found
    split at found
    case isFalse => cases found
    case isTrue accepted =>
      obtain ⟨characters, nonempty, shorter, zeros⟩ := accepted
      have whole := eq_text_append_zeros shorter zeros
      rw [(prefix_iff_eq_take.mp ( takeWhile_prefix _)).symm] at characters
      have bound : (field.takeWhile (· ≠ 0)).length ≤ field.length :=
        ( takeWhile_prefix _).length_le
      refine ⟨field.takeWhile (· ≠ 0), ?_, Option.some.inj found, ?_⟩
      · rw [validIdentifier_iff]
        refine ⟨length_pos_iff.mp (Nat.pos_of_ne_zero nonempty), by omega, ?_⟩
        simpa using characters
      · rw [padName, ← width]
        exact whole
  · rintro ⟨text, valid, rfl, rfl⟩
    obtain ⟨nonempty, short, characters⟩ := validIdentifier_iff.mp valid
    have after : (padName text).drop (text.length + 1) =
        replicate (identifierCapacity - text.length - 1) 0 := by
      simp [padName, drop_append, drop_replicate]
    have front : (padName text).take text.length = text := by simp [padName]
    simp only [fixedLength, takeWhile_padName valid, length_padName valid, after, front]
    rw [if_pos]
    refine ⟨by simpa using characters, ?_, by omega, by simp⟩
    simpa using nonempty

/-- An identifier is read back exactly when its text is valid and padded with zeros. -/
theorem fixedLength_isSome (identifier : Identifier) :
    (fixedLength identifier.bytes).isSome ↔
      validIdentifier identifier.view ∧ identifier.padded := by
  have bound : identifier.view.length ≤ identifier.bytes.length :=
    ( takeWhile_prefix _).length_le
  have front : identifier.bytes.take identifier.view.length = identifier.view :=
    (prefix_iff_eq_take.mp ( takeWhile_prefix _)).symm
  rw [identifier.length_eq] at bound
  change (if (identifier.bytes.take identifier.view.length).all identifierCharacter ∧
      identifier.view.length ≠ 0 ∧ identifier.view.length ≠ identifier.bytes.length ∧
      identifier.padded then some identifier.view.length else none).isSome ↔ _
  rw [front, identifier.length_eq, validIdentifier_iff]
  by_cases padded : identifier.padded <;> simp [padded]
  constructor
  · rintro ⟨characters, nonempty, shorter⟩
    exact ⟨nonempty, by omega, characters⟩
  · rintro ⟨nonempty, short, characters⟩
    exact ⟨characters, nonempty, by omega⟩

variable {offset : ℕ} {bytes : List UInt8}

theorem fixedIdentifier_eq_some {identifier : Identifier} :
    fixedIdentifier bytes offset = some identifier ↔
      slice bytes offset identifierCapacity = identifier.bytes ∧
        validIdentifier identifier.view ∧ identifier.padded := by
  rw [← fixedLength_isSome]
  unfold fixedIdentifier
  by_cases fits : offset + identifierCapacity ≤ bytes.length
  · rw [dif_pos fits]
    constructor
    · intro found
      split at found
      case isFalse => cases found
      case isTrue some =>
        cases found
        exact ⟨rfl, some⟩
    · rintro ⟨same, some⟩
      rw [if_pos (by rw [same]; exact some), Option.some.injEq]
      cases identifier
      simpa using same
  · rw [dif_neg fits]
    refine iff_of_false nofun fun same => fits (fits_of_length_slice (by decide) ?_)
    rw [same.1, identifier.length_eq]

theorem fixedName_eq_some {name : Span} :
    fixedName bytes offset = some name ↔
      name.offset = offset ∧ ∃ text, validIdentifier text ∧ text.length = name.size ∧
        slice bytes offset identifierCapacity = padName text := by
  unfold fixedName
  by_cases fits : offset + identifierCapacity ≤ bytes.length
  · rw [if_pos fits, Option.map_eq_some_iff]
    constructor
    · rintro ⟨length, found, rfl⟩
      exact ⟨rfl, (fixedLength_eq_some (length_slice fits)).mp found⟩
    · rintro ⟨rfl, text, valid, size, field⟩
      exact ⟨name.size, (fixedLength_eq_some (length_slice fits)).mpr ⟨text, valid, size, field⟩,
        rfl⟩
  · rw [if_neg fits]
    refine iff_of_false nofun ?_
    rintro ⟨-, text, valid, -, field⟩
    exact fits (fits_of_length_slice (by decide) (by rw [field, length_padName valid]))

/-- The name that is read is the text in the field. -/
theorem Span.of_padName {name : Span} (place : name.offset = offset)
    (size : text.length = name.size) (valid : validIdentifier text)
    (field : slice bytes offset identifierCapacity = padName text) : name.of bytes = text := by
  have short := (validIdentifier_iff.mp valid).2.1
  have part : slice bytes offset text.length =
      (slice bytes offset identifierCapacity).take text.length := by
    rw [slice, slice, take_take, Nat.min_eq_left (by omega)]
  rw [Span.of, place, ← size, part, field]
  simp [padName]

/-! ### Writing identifiers -/

@[simp] theorem length_writeName (output : List UInt8) (offset : ℕ) (value : List UInt8) :
    (writeName output offset value).length = output.length := by
  simp [writeName]

@[simp] theorem length_writeIdentifier (output : List UInt8) (offset : ℕ) (value : Identifier) :
    (writeIdentifier output offset value).length = output.length := by
  simp [writeIdentifier]

variable {output : List UInt8} {count : ℕ}

theorem slice_writeName_of_disjoint {value : List UInt8} {place : ℕ} (valid : validIdentifier value)
    (apart : offset + count ≤ place ∨ place + 64 ≤ offset) :
    slice (writeName output place value) offset count = slice output offset count := by
  have short := (validIdentifier_iff.mp valid).2.1
  unfold identifierCapacity at short
  rw [writeName, slice_overwrite_of_disjoint (by omega), slice_overwrite_of_disjoint]
  simpa [identifierCapacity] using apart

theorem slice_writeName {value : List UInt8} (valid : validIdentifier value)
    (fits : offset + 64 ≤ output.length) :
    slice (writeName output offset value) offset identifierCapacity = padName value := by
  have short := (validIdentifier_iff.mp valid).2.1
  have split : identifierCapacity = value.length + (identifierCapacity - value.length) := by omega
  unfold identifierCapacity at short
  rw [split, slice_add, writeName, slice_overwrite _ _ _ (by simp; omega),
    slice_overwrite_of_disjoint (by omega), padName]
  congr 1
  -- the part of the zeros that the text does not cover
  apply ext_getElem?
  intro index
  rw [getElem?_slice, getElem?_overwrite, length_replicate]
  simp only [identifierCapacity, List.getElem?_replicate]
  by_cases inside : index < 64 - value.length
  · rw [if_pos inside, if_pos (by omega), if_pos (by omega), if_pos inside]
  · rw [if_neg inside, if_neg inside]

theorem slice_writeIdentifier_of_disjoint {value : Identifier} {place : ℕ}
    (apart : offset + count ≤ place ∨ place + 64 ≤ offset) :
    slice (writeIdentifier output place value) offset count = slice output offset count := by
  apply slice_overwrite_of_disjoint
  simpa [value.length_eq, identifierCapacity] using apart

theorem slice_writeIdentifier {value : Identifier} (fits : offset + 64 ≤ output.length) :
    slice (writeIdentifier output offset value) offset 64 = value.bytes := by
  have width : value.bytes.length = 64 := value.length_eq
  have written := slice_overwrite output offset value.bytes (by omega)
  rwa [width] at written

/-! ## Sizes -/

/-- No size of an artifact within its limits overflows. -/
theorem le_u64Max_of_limits {size maxBytes : ℕ} (bound : size ≤ maxBytes)
    (limit : maxBytes ≤ artifactAbsoluteMaxBytes) : size ≤ u64Max := by
  unfold artifactAbsoluteMaxBytes at limit
  unfold u64Max
  omega

theorem checkedArtifactAdd_eq_some {left right sum : ℕ} (small : left ≤ u64Max) :
    checkedArtifactAdd left right = some sum ↔ left + right ≤ u64Max ∧ sum = left + right := by
  rw [checkedArtifactAdd, checkedAdd_eq_some small, Nat.add_comm]

theorem requiredBytes_eq_some {headerSize recordHeaderSize payloadBytes required : ℕ}
    (small : headerSize ≤ u64Max) :
    requiredBytes headerSize recordHeaderSize count payloadBytes = some required ↔
      headerSize + count * recordHeaderSize + payloadBytes ≤ u64Max ∧
        required = headerSize + count * recordHeaderSize + payloadBytes := by
  unfold requiredBytes
  simp only [Option.bind_eq_bind, Option.bind_eq_some_iff, checkedArtifactMultiply,
    checkedMultiply_eq_some]
  constructor
  · rintro ⟨_, ⟨_, rfl⟩, _, partly, whole⟩
    obtain ⟨fits, rfl⟩ := (checkedArtifactAdd_eq_some small).mp partly
    exact (checkedArtifactAdd_eq_some fits).mp whole
  · rintro ⟨fits, rfl⟩
    refine ⟨_, ⟨by omega, rfl⟩, _, (checkedArtifactAdd_eq_some small).mpr ⟨by omega, rfl⟩, ?_⟩
    exact (checkedArtifactAdd_eq_some (by omega)).mpr ⟨fits, rfl⟩

@[simp] theorem need_eq_ok {α : Type} {x : Option α} {value : α} :
    need x = .ok value ↔ x = some value := orReject_eq_ok

/-! ## Checksum, tier and padding -/

/-- Artifacts that agree before and after a field with their checksum are equal: the checksum is
over what they agree on. -/
theorem eq_of_checksum {left right : List UInt8}
    (before : slice left 0 offset = slice right 0 offset)
    (after : left.drop (offset + 8) = right.drop (offset + 8)) (roomL : offset + 8 ≤ left.length)
    (roomR : offset + 8 ≤ right.length)
    (sumL : slice left offset 8 = leBytes 8 (checksumExcluding left offset 8).toNat)
    (sumR : slice right offset 8 = leBytes 8 (checksumExcluding right offset 8).toNat) :
    left = right := by
  have zeros : ∀ bytes : List UInt8, offset + 8 ≤ bytes.length →
      slice (overwrite bytes offset (replicate 8 0)) 0 (offset + 8) =
        slice bytes 0 offset ++ replicate 8 0 := by
    intro bytes room
    have written := slice_overwrite bytes offset (replicate 8 (0 : UInt8)) (by simpa using room)
    rw [length_replicate] at written
    rw [slice_add, Nat.zero_add, written, slice_overwrite_of_disjoint (.inl (by omega))]
  have zeroed : overwrite left offset (replicate 8 0) =
      overwrite right offset (replicate 8 0) := by
    apply eq_of_slices (offset + 8)
    · rw [zeros left roomL, zeros right roomR, before]
    · rw [drop_overwrite (by simp), drop_overwrite (by simp), after]
  have sums : slice left offset 8 = slice right offset 8 := by
    rw [sumL, sumR, checksumExcluding, checksumExcluding, zeroed]
  apply eq_of_slices (offset + 8)
  · rw [slice_add, slice_add, before, Nat.zero_add, sums]
  · exact after

/-- The checksum does not see the field it is stored in. -/
theorem checksumExcluding_storeU64 {artifact : List UInt8} {value : UInt64} :
    checksumExcluding (storeU64 artifact offset value) offset 8 =
      checksumExcluding artifact offset 8 := by
  unfold checksumExcluding storeU64
  split
  · rw [overwrite_overwrite (by simp)]
  · rfl

theorem DeterminismTier.code_ofCode {code : UInt32} (valid : validTier code) :
    (DeterminismTier.ofCode code).code = code := by
  have small : code.toNat ≤ 3 := by simpa [validTier, UInt32.le_iff_toNat_le] using valid
  have cases : code = 0 ∨ code = 1 ∨ code = 2 ∨ code = 3 := by
    simp only [← UInt32.toNat_inj]
    simp only [UInt32.reduceToNat]
    omega
  rcases cases with rfl | rfl | rfl | rfl <;> rfl

theorem all_zero_iff (length : bytes.length = count) :
    bytes.all (· = 0) ↔ bytes = leBytes count 0 := by
  rw [leBytes_zero, eq_replicate_iff]
  simp [length]

end RtRuntime

