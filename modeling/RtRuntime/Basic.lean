import RtRuntime.ListChanges
import Mathlib.Data.Nat.Bitwise

/-!
# Shared vocabulary: statuses, checked arithmetic, graph handles

The small definitions every compiler of the runtime uses:

* `Status` — the result codes of `rt/status.hpp`;
* `checkedAdd` / `checkedMultiply` / `checkedLcm` — the overflow-checked 64-bit
  helpers. They compute modulo `2 ^ 64` behind the guard of the source, and the
  `_eq_some` lemmas say the guard makes the result exact;
* the instance-local handles of `rt/graph.hpp`, kept as encoded 64-bit words. An
  owner sits in the upper half, two kind bits and a 30-bit index in the lower.

Values that the source stores in fixed-width fields are `UInt64`/`UInt32` here;
locals of the algorithms are natural numbers, so that "exact" means equality in `ℕ`.
-/

namespace RtRuntime

/-! ## Result codes -/

/-- Result codes of the runtime. -/
inductive Status : Type where
  | ok
  | invalidArgument
  | invalidState
  | invalidConfig
  | capacityExceeded
  | callbackFailed
  | resourceExhausted
  | internalError
  | invalidHandle
  | graphCycle
  | resourceConflict
  | queueFull
  | scratchExhausted
  | platformPreflightFailed
  | clockFailure
  | invalidArtifact
  | incompatibleArtifact
  | deviceQueueFull
  | deviceTimeout
  | deviceError
  | deviceLost
  | deviceCanceled
  | deviceResetRequired
  | incompatibleAbi
  deriving DecidableEq, Repr

/-! ## Checked 64-bit arithmetic -/

/-- The largest 64-bit unsigned value. -/
def u64Max : ℕ := 2 ^ 64 - 1

/-- `checked_add`: the sum, unless it does not fit 64 bits. -/
def checkedAdd (left right : ℕ) : Option ℕ :=
  if left > u64Max - right then none else some ((left + right) % 2 ^ 64)

/-- `checked_multiply`: the product, unless it does not fit 64 bits. -/
def checkedMultiply (left right : ℕ) : Option ℕ :=
  if left ≠ 0 ∧ right > u64Max / left then none else some ((left * right) % 2 ^ 64)

/-- `checked_lcm`: divides by the gcd before the checked product. -/
def checkedLcm (left right : ℕ) : Option ℕ :=
  let divisor := Nat.gcd left right
  if divisor = 0 then none else checkedMultiply (left / divisor) right

variable {right left : ℕ}

/-- The guard of `checkedAdd` is exact on 64-bit operands. -/
theorem checkedAdd_eq (hr : right ≤ u64Max) :
    checkedAdd left right = if left + right ≤ u64Max then some (left + right) else none := by
  unfold checkedAdd
  by_cases h : left + right ≤ u64Max
  · have hlt : left + right < 2 ^ 64 := by unfold u64Max at h; omega
    rw [if_pos h, if_neg (by omega), Nat.mod_eq_of_lt hlt]
  · rw [if_neg h, if_pos (by omega)]

/-- Inversion for `checkedAdd`. -/
theorem checkedAdd_eq_some {sum : ℕ} (hr : right ≤ u64Max) :
    checkedAdd left right = some sum ↔ left + right ≤ u64Max ∧ sum = left + right := by
  rw [checkedAdd_eq hr, Option.ite_none_right_eq_some, Option.some.injEq, eq_comm]

/-- The guard of `checkedMultiply` is exact. -/
theorem checkedMultiply_eq (left right : ℕ) :
    checkedMultiply left right =
      if left * right ≤ u64Max then some (left * right) else none := by
  unfold checkedMultiply
  by_cases h : left * right ≤ u64Max
  · have hlt : left * right < 2 ^ 64 := by unfold u64Max at h; omega
    rw [if_pos h, if_neg, Nat.mod_eq_of_lt hlt]
    rintro ⟨hl, hr⟩
    have hle : right ≤ u64Max / left :=
      (Nat.le_div_iff_mul_le (Nat.pos_of_ne_zero hl)).mpr (by rwa [Nat.mul_comm])
    omega
  · rw [if_neg h, if_pos]
    have hl : left ≠ 0 := by
      rintro rfl
      exact h (by simp)
    refine ⟨hl, ?_⟩
    by_contra hr
    have hle : right ≤ u64Max / left := by omega
    rw [Nat.le_div_iff_mul_le (Nat.pos_of_ne_zero hl), Nat.mul_comm] at hle
    exact h hle

/-- Inversion for `checkedMultiply`. -/
theorem checkedMultiply_eq_some {product : ℕ} :
    checkedMultiply left right = some product ↔
      left * right ≤ u64Max ∧ product = left * right := by
  rw [checkedMultiply_eq, Option.ite_none_right_eq_some, Option.some.injEq, eq_comm]

/-- Inversion for `checkedLcm`: on success the result is the least common multiple,
represented exactly. -/
theorem checkedLcm_eq_some {multiple : ℕ} (h : checkedLcm left right = some multiple) :
    multiple = Nat.lcm left right ∧ multiple ≤ u64Max ∧ Nat.gcd left right ≠ 0 := by
  unfold checkedLcm at h
  simp only at h
  by_cases hd : Nat.gcd left right = 0
  · rw [if_pos hd] at h
    cases h
  · rw [if_neg hd, checkedMultiply_eq_some] at h
    obtain ⟨hle, rfl⟩ := h
    refine ⟨?_, hle, hd⟩
    rw [Nat.lcm_eq_mul_div, Nat.mul_comm left right,
      Nat.mul_div_assoc right (Nat.gcd_dvd_left left right), Nat.mul_comm]

/-- The fold of `lcm` is a common multiple. -/
theorem dvd_foldl_lcm (l : List ℕ) :
    ∀ a, a ∣ l.foldl Nat.lcm a ∧ ∀ x ∈ l, x ∣ l.foldl Nat.lcm a := by
  induction l with
  | nil => exact fun a => ⟨dvd_rfl, by simp⟩
  | cons y l ih =>
    intro a
    obtain ⟨hacc, hall⟩ := ih (Nat.lcm a y)
    exact ⟨(Nat.dvd_lcm_left a y).trans hacc,
      List.forall_mem_cons.mpr ⟨(Nat.dvd_lcm_right a y).trans hacc, hall⟩⟩

theorem foldl_lcm_pos (l : List ℕ) (hl : ∀ x ∈ l, 0 < x) (a : ℕ) (ha : 0 < a) :
    0 < l.foldl Nat.lcm a :=
  List.foldlRecOn (motive := (0 < ·)) _ _ ha fun _ hb x hx => Nat.lcm_pos hb (hl x hx)

/-- The largest fixed-width value fits the guards above. -/
theorem toNat_le_u64Max (x : UInt64) : x.toNat ≤ u64Max := by
  have := x.toNat_lt
  unfold u64Max
  omega

theorem toNat_ofNat_of_le {n : ℕ} (h : n ≤ u64Max) : (UInt64.ofNat n).toNat = n :=
  UInt64.toNat_ofNat_of_lt' (h.trans_lt (by decide))

/-! ## Graph handles -/

/-- `graph_resource_kind_bit`. -/
def graphResourceKindBit : UInt32 := (1 : UInt32) <<< 31

/-- `graph_rate_domain_kind_bit`. -/
def graphRateDomainKindBit : UInt32 := (1 : UInt32) <<< 30

/-- `graph_handle_index_mask`. -/
def graphHandleIndexMask : UInt32 := graphRateDomainKindBit - 1

/-- `invalid_graph_handle`, the value of a default-constructed handle. -/
def invalidGraphHandle : UInt64 := UInt64.ofNat u64Max

/-- The owner component, common to every handle kind. -/
def handleOwner (value : UInt64) : UInt32 := (value >>> 32).toUInt32

/-- The index component of the graph handles. -/
def handleIndex (value : UInt64) : UInt32 := value.toUInt32 &&& graphHandleIndexMask

/-- A handle word from its owner, kind bits and index. -/
def encodeHandle (owner kind index : UInt32) : UInt64 :=
  (owner.toUInt64 <<< 32) ||| kind.toUInt64 ||| index.toUInt64

/-- Handle of a phase: both kind bits are clear. -/
structure PhaseHandle where
  /-- the encoded word -/
  value : UInt64 := invalidGraphHandle
  deriving DecidableEq, Repr

/-- Handle of a resource: the resource bit is set, the rate-domain bit clear. -/
structure ResourceHandle where
  /-- the encoded word -/
  value : UInt64 := invalidGraphHandle
  deriving DecidableEq, Repr

/-- Handle of a rate domain: the rate-domain bit is set, the resource bit clear. -/
structure RateDomainHandle where
  /-- the encoded word -/
  value : UInt64 := invalidGraphHandle
  deriving DecidableEq, Repr

namespace PhaseHandle

/-- The handle of phase `index` of `owner`. -/
def make (owner index : UInt32) : PhaseHandle := ⟨encodeHandle owner 0 index⟩

def valid (h : PhaseHandle) : Bool :=
  h.value ≠ invalidGraphHandle ∧
    h.value.toUInt32 &&& (graphResourceKindBit ||| graphRateDomainKindBit) = 0

def owner (h : PhaseHandle) : UInt32 := handleOwner h.value

def index (h : PhaseHandle) : ℕ := (handleIndex h.value).toNat

end PhaseHandle

namespace ResourceHandle

def make (owner index : UInt32) : ResourceHandle :=
  ⟨encodeHandle owner graphResourceKindBit index⟩

def valid (h : ResourceHandle) : Bool :=
  h.value ≠ invalidGraphHandle ∧ h.value.toUInt32 &&& graphResourceKindBit ≠ 0 ∧
    h.value.toUInt32 &&& graphRateDomainKindBit = 0

def owner (h : ResourceHandle) : UInt32 := handleOwner h.value

def index (h : ResourceHandle) : ℕ := (handleIndex h.value).toNat

end ResourceHandle

namespace RateDomainHandle

def make (owner index : UInt32) : RateDomainHandle :=
  ⟨encodeHandle owner graphRateDomainKindBit index⟩

def valid (h : RateDomainHandle) : Bool :=
  h.value ≠ invalidGraphHandle ∧ h.value.toUInt32 &&& graphResourceKindBit = 0 ∧
    h.value.toUInt32 &&& graphRateDomainKindBit ≠ 0

def owner (h : RateDomainHandle) : UInt32 := handleOwner h.value

def index (h : RateDomainHandle) : ℕ := (handleIndex h.value).toNat

end RateDomainHandle

/-! ### Handle words as numbers

`handleKind` reads the two kind bits; with owner and index it determines the word. -/

/-- The two kind bits of a handle word, as a number below four. -/
def handleKind (value : UInt64) : ℕ := value.toNat % 2 ^ 32 / 2 ^ 30

theorem handleIndex_toNat (v : UInt64) : (handleIndex v).toNat = v.toNat % 2 ^ 30 := by
  have hm : graphHandleIndexMask.toNat = 2 ^ 30 - 1 := by decide
  rw [handleIndex, UInt32.toNat_and, hm, Nat.and_two_pow_sub_one_eq_mod, UInt64.toNat_toUInt32]
  omega

theorem handleOwner_toNat (v : UInt64) : (handleOwner v).toNat = v.toNat / 2 ^ 32 := by
  have hv := v.toNat_lt
  rw [handleOwner, UInt64.toNat_toUInt32, UInt64.toNat_shiftRight]
  simp only [UInt64.reduceToNat, Nat.reduceMod, Nat.shiftRight_eq_div_pow]
  omega

/-- A handle word is determined by its owner, kind and index. -/
theorem handle_ext {v w : UInt64} (ho : handleOwner v = handleOwner w)
    (hk : handleKind v = handleKind w)
    (hi : (handleIndex v).toNat = (handleIndex w).toNat) : v = w := by
  have ho' := congrArg UInt32.toNat ho
  rw [handleOwner_toNat, handleOwner_toNat] at ho'
  rw [handleIndex_toNat, handleIndex_toNat] at hi
  unfold handleKind at hk
  apply UInt64.toNat_inj.mp
  omega

/-- Testing one bit of the lower half of a handle word. -/
theorem toUInt32_land_bit (v : UInt64) {bit : UInt32} {i : ℕ} (hb : bit.toNat = 2 ^ i) :
    v.toUInt32 &&& bit = 0 ↔ v.toNat % 2 ^ 32 / 2 ^ i % 2 = 0 := by
  rw [← UInt32.toNat_inj, UInt32.toNat_and, hb, UInt64.toNat_toUInt32, Nat.and_two_pow,
    Nat.testBit_eq_decide_div_mod_eq]
  simp

theorem graphResourceKindBit_toNat : graphResourceKindBit.toNat = 2 ^ 31 := by decide

theorem graphRateDomainKindBit_toNat : graphRateDomainKindBit.toNat = 2 ^ 30 := by decide

theorem handleKind_invalid : handleKind invalidGraphHandle = 3 := by decide

/-- A word of another kind than `3` is not the invalid word. -/
theorem ne_invalid_of_handleKind {v : UInt64} (h : handleKind v ≠ 3) :
    v ≠ invalidGraphHandle := by
  rintro rfl
  exact h handleKind_invalid

theorem PhaseHandle.valid_iff (h : PhaseHandle) :
    h.valid = true ↔ handleKind h.value = 0 := by
  have hsplit : h.value.toUInt32 &&& (graphResourceKindBit ||| graphRateDomainKindBit) = 0 ↔
      h.value.toUInt32 &&& graphResourceKindBit = 0 ∧
        h.value.toUInt32 &&& graphRateDomainKindBit = 0 := by
    simp only [← UInt32.toNat_inj, UInt32.toNat_and, UInt32.toNat_or, Nat.and_or_distrib_left,
      UInt32.toNat_zero, Nat.or_eq_zero_iff]
  rw [toUInt32_land_bit _ graphResourceKindBit_toNat,
    toUInt32_land_bit _ graphRateDomainKindBit_toNat] at hsplit
  simp only [PhaseHandle.valid, hsplit, decide_eq_true_eq, handleKind]
  constructor
  · rintro ⟨-, h₁, h₂⟩
    omega
  · intro hk
    exact ⟨ne_invalid_of_handleKind (by unfold handleKind; omega), by omega, by omega⟩

theorem ResourceHandle.valid_iff (h : ResourceHandle) :
    h.valid = true ↔ handleKind h.value = 2 := by
  simp only [ResourceHandle.valid, toUInt32_land_bit _ graphResourceKindBit_toNat,
    toUInt32_land_bit _ graphRateDomainKindBit_toNat, decide_eq_true_eq, handleKind, ne_eq]
  constructor
  · rintro ⟨-, h₁, h₂⟩
    omega
  · intro hk
    exact ⟨ne_invalid_of_handleKind (by unfold handleKind; omega), by omega, by omega⟩

/-- Valid phase handles of one owner are determined by their index. -/
theorem PhaseHandle.ext_of_valid {p q : PhaseHandle} (hp : p.valid = true) (hq : q.valid = true)
    (ho : p.owner = q.owner) (hi : p.index = q.index) : p = q := by
  rw [PhaseHandle.valid_iff] at hp hq
  have hv : p.value = q.value := handle_ext ho (hp.trans hq.symm) hi
  cases p; cases q
  exact congrArg PhaseHandle.mk hv

/-- Valid resource handles of one owner are determined by their index. -/
theorem ResourceHandle.ext_of_valid {p q : ResourceHandle} (hp : p.valid = true)
    (hq : q.valid = true) (ho : p.owner = q.owner) (hi : p.index = q.index) : p = q := by
  rw [ResourceHandle.valid_iff] at hp hq
  have hv : p.value = q.value := handle_ext ho (hp.trans hq.symm) hi
  cases p; cases q
  exact congrArg ResourceHandle.mk hv

/-- The encoded word as a number, when the index leaves the kind bits alone. -/
theorem encodeHandle_toNat {owner kind index : UInt32} {k : ℕ} (hk : kind.toNat = k * 2 ^ 30)
    (hi : index.toNat < 2 ^ 30) :
    (encodeHandle owner kind index).toNat = owner.toNat * 2 ^ 32 + k * 2 ^ 30 + index.toNat := by
  have ho := owner.toNat_lt
  have hkl := kind.toNat_lt
  have hlow : k * 2 ^ 30 ||| index.toNat = k * 2 ^ 30 + index.toNat := by
    rw [← Nat.shiftLeft_eq, ← Nat.shiftLeft_add_eq_or_of_lt hi]
  have hshift : (owner.toUInt64 <<< 32).toNat = owner.toNat <<< 32 := by
    rw [UInt64.toNat_shiftLeft]
    simp only [UInt32.toNat_toUInt64, UInt64.reduceToNat, Nat.reduceMod, Nat.shiftLeft_eq]
    omega
  have hlt : k * 2 ^ 30 + index.toNat < 2 ^ 32 := by omega
  rw [encodeHandle, UInt64.or_assoc, UInt64.toNat_or, UInt64.toNat_or, UInt32.toNat_toUInt64,
    UInt32.toNat_toUInt64, hk, hlow, hshift, ← Nat.shiftLeft_add_eq_or_of_lt hlt,
    Nat.shiftLeft_eq, Nat.add_assoc]

theorem RateDomainHandle.make_index {owner index : UInt32} (hi : index.toNat < 2 ^ 30) :
    (RateDomainHandle.make owner index).index = index.toNat := by
  rw [RateDomainHandle.index, handleIndex_toNat, RateDomainHandle.make,
    encodeHandle_toNat (k := 1) (by decide) hi]
  omega

end RtRuntime
