import RtRuntime.Basic

/-!
# The text of a runtime profile

A profile is parsed only if its bytes are UTF-8.  `valid_utf8` passes the bytes in steps of the
length that a first byte announces.  It passes the encodings of the Unicode scalar values and
nothing else, and it reports the first place where none begins.
-/

namespace RtRuntime

open List

open String (utf8EncodeChar length_utf8EncodeChar)

def continuation (value : UInt8) : Bool := value ≥ 0x80 && value ≤ 0xbf

/-- The length that the first byte of a longer sequence announces. -/
def announcedLength (first : UInt8) : Option ℕ :=
  if first ≥ 0xc2 ∧ first ≤ 0xdf then some 2
  else if first ≥ 0xe0 ∧ first ≤ 0xef then some 3
  else if first ≥ 0xf0 ∧ first ≤ 0xf4 then some 4
  else none

def secondFails (first second : UInt8) : Bool :=
  !continuation second || (first = 0xe0 && second < 0xa0) || (first = 0xed && second > 0x9f) ||
    (first = 0xf0 && second < 0x90) || (first = 0xf4 && second > 0x8f)

/-- A turn of the loop, on the bytes from `index` on: how many it passes. -/
def sequenceLength (rest : List UInt8) : Option ℕ :=
  let first := rest.getD 0 0
  if first ≤ 0x7f then some 1
  else
    (announcedLength first).bind fun length =>
      if length > rest.length ∨ secondFails first (rest.getD 1 0) ∨
          ¬ ((rest.take length).drop 2).all continuation then none
      else some length

theorem sequenceLength_pos {rest : List UInt8} {length : ℕ}
    (passed : sequenceLength rest = some length) : 0 < length := by
  simp only [sequenceLength, announcedLength] at passed
  split_ifs at passed
  case neg => cases passed
  · cases passed
    exact Nat.one_pos
  all_goals
    rw [Option.bind_some] at passed
    split_ifs at passed
    cases passed
    exact Nat.succ_pos _

/-- The loop from an index on: the verdict, and `invalid_offset` as it is left. -/
def validUtf8From (input : List UInt8) (invalidOffset index : ℕ) : Bool × ℕ :=
  if index < input.length then
    match _passed : sequenceLength (input.drop index) with
    | some length => validUtf8From input invalidOffset (index + length)
    | none => (false, index)
  else (true, invalidOffset)
termination_by input.length - index
decreasing_by
  have := sequenceLength_pos _passed
  omega

def validUtf8 (input : List UInt8) (invalidOffset : ℕ) : Bool × ℕ :=
  validUtf8From input invalidOffset 0

/-! ## One sequence -/

section Sequence

attribute [local simp] UInt8.le_iff_toNat_le UInt8.lt_iff_toNat_lt

attribute [-simp] UInt8.ofNat_add

/-- The encoding of a scalar value is passed, whatever follows. -/
theorem sequenceLength_encode (c : Char) (tail : List UInt8) :
    sequenceLength (utf8EncodeChar c ++ tail) = some (utf8EncodeChar c).length := by
  have valid := c.valid
  simp only [UInt32.isValidChar, Nat.isValidChar] at valid
  unfold utf8EncodeChar
  generalize c.val.toNat = value at valid
  dsimp only
  split_ifs
  all_goals
    simp [sequenceLength, announcedLength, secondFails, continuation, ← UInt8.toNat_inj]
  · omega
  · rw [if_neg (by omega), if_pos (by omega)]
    simp
    omega
  · rw [if_neg (by omega), if_neg (by omega), if_pos (by omega)]
    simp
    omega
  · rw [if_neg (by omega), if_neg (by omega), if_neg (by omega), if_pos (by omega)]
    simp
    omega

theorem exists_toNat_eq {value : ℕ} (valid : value.isValidChar) : ∃ c : Char, c.val.toNat = value :=
  ⟨Char.ofNatAux value valid, rfl⟩

/-- What is passed begins with the encoding of a scalar value. -/
theorem exists_encode {rest : List UInt8} (nonempty : rest ≠ []) {length : ℕ}
    (passed : sequenceLength rest = some length) : ∃ c, utf8EncodeChar c <+: rest := by
  simp only [sequenceLength, announcedLength] at passed
  split_ifs at passed with one two three four
  · obtain ⟨a, tail, rfl⟩ := exists_cons_of_ne_nil nonempty
    have low : a.toNat ≤ 127 := by simpa using one
    obtain ⟨c, value⟩ := exists_toNat_eq (.inl (by omega : a.toNat < 0xd800))
    exact ⟨c, tail, by simp [utf8EncodeChar, value, low]⟩
  case neg => cases passed
  all_goals
    rw [Option.bind_some] at passed
    split_ifs at passed with checks
    push Not at checks
    simp only [utf8EncodeChar]
  · match rest, checks.1 with
    | a :: b :: tail, _ =>
      simp [secondFails, continuation, ← UInt8.toNat_inj] at checks two
      obtain ⟨c, value⟩ := exists_toNat_eq (by unfold Nat.isValidChar; omega :
        ((a.toNat - 0xc0) * 64 + (b.toNat - 0x80)).isValidChar)
      refine ⟨c, tail, ?_⟩
      rw [value, if_neg (by omega), if_pos (by omega)]
      simp [← UInt8.toNat_inj]
      omega
  · match rest, checks.1 with
    | a :: b :: d :: tail, _ =>
      simp [secondFails, continuation, ← UInt8.toNat_inj] at checks three
      obtain ⟨c, value⟩ := exists_toNat_eq (by unfold Nat.isValidChar; omega :
        ((a.toNat - 0xe0) * 4096 + (b.toNat - 0x80) * 64 + (d.toNat - 0x80)).isValidChar)
      refine ⟨c, tail, ?_⟩
      rw [value, if_neg (by omega), if_neg (by omega), if_pos (by omega)]
      simp [← UInt8.toNat_inj]
      omega
  · match rest, checks.1 with
    | a :: b :: d :: e :: tail, _ =>
      simp [secondFails, continuation, ← UInt8.toNat_inj] at checks four
      obtain ⟨c, value⟩ := exists_toNat_eq (by unfold Nat.isValidChar; omega :
        ((a.toNat - 0xf0) * 262144 + (b.toNat - 0x80) * 4096 + (d.toNat - 0x80) * 64 +
          (e.toNat - 0x80)).isValidChar)
      refine ⟨c, tail, ?_⟩
      rw [value, if_neg (by omega), if_neg (by omega), if_neg (by omega)]
      simp [← UInt8.toNat_inj]
      omega

end Sequence

/-! ## The loop -/

/-- The bytes are well-formed sequences one after another: the encoding of some text. -/
def WellFormed (bytes : List UInt8) : Prop := ∃ text : List Char, bytes = text.flatMap utf8EncodeChar

/-- The first ill-formed sequence begins here. -/
structure IllFormedAt (bytes : List UInt8) (offset : ℕ) : Prop where
  inside : offset < bytes.length
  before : WellFormed (bytes.take offset)
  here : ∀ c, ¬ utf8EncodeChar c <+: bytes.drop offset

variable {rest input : List UInt8} (invalidOffset : ℕ)

/-- The loop passes every encoded text. -/
theorem validUtf8From_text (text : List Char) {index : ℕ}
    (next : input.drop index = text.flatMap utf8EncodeChar ++ rest) :
    validUtf8From input invalidOffset index =
      validUtf8From input invalidOffset (index + (text.flatMap utf8EncodeChar).length) := by
  induction text generalizing index with
  | nil => rfl
  | cons c text ih =>
    rw [flatMap_cons, append_assoc] at next
    have passed := sequenceLength_encode c (text.flatMap utf8EncodeChar ++ rest)
    rw [← next] at passed
    have inside : index < input.length := by
      by_contra outside
      rw [drop_of_length_le (Nat.le_of_not_lt outside)] at next
      have := congrArg List.length next
      have := c.utf8Size_pos
      simp only [length_append, length_utf8EncodeChar, length_nil] at *
      omega
    rw [validUtf8From, if_pos inside]
    split
    next length is =>
      rw [passed] at is
      cases is
      rw [ih, flatMap_cons, length_append, Nat.add_assoc]
      rw [← drop_drop, next, drop_left]
    next none =>
      rw [passed] at none
      cases none

/-- The loop ends where the text ends, and nothing is left exactly if it accepts. -/
theorem validUtf8_text (text : List Char) (stops : ∀ c, ¬ utf8EncodeChar c <+: rest) :
    validUtf8 (text.flatMap utf8EncodeChar ++ rest) invalidOffset =
      if rest = [] then (true, invalidOffset) else (false, (text.flatMap utf8EncodeChar).length) := by
  rw [validUtf8, validUtf8From_text invalidOffset text drop_zero, validUtf8From, Nat.zero_add]
  by_cases empty : rest = []
  · rw [if_neg (by simp [empty]), if_pos empty]
  · rw [if_pos (by simpa using length_pos_iff.mpr empty), if_neg empty, drop_left]
    split
    next length passed =>
      obtain ⟨c, begins⟩ := exists_encode empty passed
      exact absurd begins (stops c)
    next => rfl

/-- Every input is a text and a rest where no sequence begins. -/
theorem exists_text (input : List UInt8) : ∃ (text : List Char) (rest : List UInt8),
    input = text.flatMap utf8EncodeChar ++ rest ∧ ∀ c, ¬ utf8EncodeChar c <+: rest := by
  induction size : input.length using Nat.strong_induction_on generalizing input with
  | h size ih =>
    by_cases begins : ∃ c, utf8EncodeChar c <+: input
    · obtain ⟨c, tail, rfl⟩ := begins
      have := c.utf8Size_pos
      rw [length_append, length_utf8EncodeChar] at size
      obtain ⟨text, rest, rfl, stops⟩ := ih tail.length (by omega) tail rfl
      exact ⟨c :: text, rest, by simp, stops⟩
    · exact ⟨[], input, rfl, not_exists.mp begins⟩

/-- `valid_utf8` accepts exactly the encoded texts, and otherwise reports where the first ill-formed
sequence begins. -/
theorem validUtf8_iff (input : List UInt8) (invalidOffset : ℕ) :
    ((validUtf8 input invalidOffset).1 = true ↔ WellFormed input) ∧
      ∀ offset, validUtf8 input invalidOffset = (false, offset) ↔ IllFormedAt input offset := by
  have ends (text : List Char) : validUtf8 (text.flatMap utf8EncodeChar) invalidOffset =
      (true, invalidOffset) := by
    have stops (c : Char) : ¬ utf8EncodeChar c <+: [] := by
      rw [prefix_nil, ← length_eq_zero_iff, length_utf8EncodeChar]
      exact c.utf8Size_pos.ne'
    simpa using validUtf8_text invalidOffset text stops
  obtain ⟨text, rest, split, stops⟩ := exists_text input
  have result := validUtf8_text invalidOffset text stops
  rw [← split] at result
  refine ⟨⟨fun accepted => ⟨text, ?_⟩, ?_⟩, fun offset => ⟨fun rejected => ?_, fun ill => ?_⟩⟩
  · by_cases empty : rest = []
    · rw [split, empty, append_nil]
    · rw [result, if_neg empty] at accepted
      cases accepted
  · rintro ⟨text, rfl⟩
    rw [ends]
  · by_cases empty : rest = []
    · rw [result, if_pos empty] at rejected
      cases rejected
    · rw [result, if_neg empty] at rejected
      cases rejected
      subst split
      exact ⟨by simpa using length_pos_iff.mpr empty, ⟨text, take_left⟩, by rwa [drop_left]⟩
  · obtain ⟨before, is⟩ := ill.before
    have size : (before.flatMap utf8EncodeChar).length = offset := by
      rw [← is, length_take_of_le ill.inside.le]
    have again := validUtf8_text invalidOffset before ill.here
    rwa [← is, take_append_drop, if_neg (by simpa using ill.inside), is, size] at again

end RtRuntime
