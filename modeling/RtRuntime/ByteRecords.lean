import RtRuntime.ByteFields

/-!
# Sequences of records

A `RecordFormat` says which bytes a record takes.  Records that stand one after the other determine
the bytes they take together, a loop of stores lays them out, and a cursor reads them back.
-/

namespace RtRuntime

open List

/-- A kind of record that is laid out in a list: the bytes it takes, and when it stands at an
offset.  This is a matter of the bytes from the offset on only, and determines them. -/
structure RecordFormat (α ρ : Type) where
  size : ρ → ℕ
  At : List α → ℕ → ρ → Prop
  fits {xs : List α} {offset : ℕ} {record : ρ} :
    At xs offset record → offset + size record ≤ xs.length
  slice_eq {xs ys : List α} {offset : ℕ} {record : ρ} :
    At xs offset record → At ys offset record →
      slice xs offset (size record) = slice ys offset (size record)
  of_slice_eq {xs ys : List α} {offset : ℕ} {record : ρ} :
    xs.length = ys.length →
      (∀ place count, offset ≤ place → place + count ≤ offset + size record →
        slice xs place count = slice ys place count) →
      At ys offset record → At xs offset record

namespace RecordFormat

variable {α ρ : Type} (format : RecordFormat α ρ) {xs ys : List α} {offset : ℕ} {records : List ρ}

/-- The records stand one after the other from `offset` to the end. -/
def SeqAt (xs : List α) : ℕ → List ρ → Prop
  | offset, [] => offset = xs.length
  | offset, record :: records =>
    format.At xs offset record ∧ SeqAt xs (offset + format.size record) records

variable {format}

theorem SeqAt.length_eq (stand : format.SeqAt xs offset records) :
    xs.length = offset + (records.map format.size).sum := by
  induction records generalizing offset with
  | nil =>
    have ends : offset = xs.length := stand
    simp [ends]
  | cons record records ih => rw [ih stand.2, map_cons, sum_cons, Nat.add_assoc]

/-- Records determine the bytes they take. -/
theorem SeqAt.drop_eq (hx : format.SeqAt xs offset records) (hy : format.SeqAt ys offset records) :
    xs.drop offset = ys.drop offset := by
  induction records generalizing offset with
  | nil =>
    have endX : offset = xs.length := hx
    have endY : offset = ys.length := hy
    rw [drop_of_length_le endX.ge, drop_of_length_le endY.ge]
  | cons record records ih =>
    rw [drop_eq_slice_append xs offset (format.size record),
      drop_eq_slice_append ys offset (format.size record), format.slice_eq hx.1 hy.1,
      ih hx.2 hy.2]

/-- What stands before the records does not matter to them. -/
theorem SeqAt.of_slice_eq (lengths : xs.length = ys.length)
    (same : ∀ place count, offset ≤ place → slice xs place count = slice ys place count)
    (stand : format.SeqAt ys offset records) : format.SeqAt xs offset records := by
  induction records generalizing offset with
  | nil => exact Eq.trans stand lengths.symm
  | cons record records ih =>
    refine ⟨format.of_slice_eq lengths (fun place count after _ => same place count after) stand.1,
      ih (fun place count after => same place count ?_) stand.2⟩
    omega

end RecordFormat

/-! ## Writing -/

section Writing

variable {α ρ : Type}

/-- The loop that stores records one after the other. -/
def storeRecords (size : ρ → ℕ) (store : List α → ℕ → ρ → List α) : List ρ → ℕ → List α → List α
  | [], _, xs => xs
  | record :: records, offset, xs =>
    storeRecords size store records (offset + size record) (store xs offset record)

/-- A store that lays out one record over blanks and touches nothing else. -/
structure RecordWriter (format : RecordFormat α ρ) (blank : α) (Valid : ρ → Prop)
    (store : List α → ℕ → ρ → List α) : Prop where
  length_eq (xs : List α) (offset : ℕ) (record : ρ) : (store xs offset record).length = xs.length
  apart {xs : List α} {place offset count : ℕ} {record : ρ} : Valid record →
    offset + count ≤ place ∨ place + format.size record ≤ offset →
    slice (store xs place record) offset count = slice xs offset count
  stands {xs : List α} {offset : ℕ} {record : ρ} : Valid record →
    offset + format.size record ≤ xs.length →
    (∀ place count, offset ≤ place → place + count ≤ offset + format.size record →
      slice xs place count = List.replicate count blank) →
    format.At (store xs offset record) offset record

namespace RecordWriter

variable {format : RecordFormat α ρ} {blank : α} {Valid : ρ → Prop}
  {store : List α → ℕ → ρ → List α} (writer : RecordWriter format blank Valid store)
  {xs : List α} {offset place count : ℕ} {records : List ρ}
include writer

theorem length_storeRecords :
    (storeRecords format.size store records offset xs).length = xs.length := by
  induction records generalizing offset xs with
  | nil => rfl
  | cons record records ih => rw [storeRecords, ih, writer.length_eq]

/-- Records leave everything before them as it was. -/
theorem slice_storeRecords_of_le (valid : ∀ record ∈ records, Valid record)
    (before : offset + count ≤ place) :
    slice (storeRecords format.size store records place xs) offset count =
      slice xs offset count := by
  induction records generalizing place xs with
  | nil => rfl
  | cons record records ih =>
    obtain ⟨here, later⟩ := forall_mem_cons.mp valid
    rw [storeRecords, ih later (by omega), writer.apart here (.inl before)]

/-- Records stored over blanks stand one after the other. -/
theorem seqAt_storeRecords (valid : ∀ record ∈ records, Valid record)
    (length : xs.length = offset + (records.map format.size).sum)
    (blanks : ∀ place count, offset ≤ place → place + count ≤ xs.length →
      slice xs place count = replicate count blank) :
    format.SeqAt (storeRecords format.size store records offset xs) offset records := by
  induction records generalizing offset xs with
  | nil =>
    rw [map_nil, sum_nil, Nat.add_zero] at length
    exact length.symm
  | cons record records ih =>
    rw [map_cons, sum_cons] at length
    obtain ⟨here, later⟩ := forall_mem_cons.mp valid
    have written : format.At (store xs offset record) offset record :=
      writer.stands here (by omega) fun place count after inside =>
        blanks place count after (by omega)
    constructor
    · refine format.of_slice_eq ?_ (fun place count _ inside => ?_) written
      · rw [storeRecords, writer.length_storeRecords]
      · exact writer.slice_storeRecords_of_le later inside
    · refine ih later (by rw [writer.length_eq]; omega) ?_
      intro place count after inside
      rw [writer.length_eq] at inside
      rw [writer.apart here (.inr after)]
      exact blanks place count (by omega) inside

end RecordWriter
end Writing

/-! ## Reading -/

section Reading

variable {α ρ γ ν : Type}

/-- `count` calls of a cursor that all give a view. -/
def readCount (next : γ → Option ν × γ) : ℕ → γ → Option (List ν × γ)
  | 0, cursor => some ([], cursor)
  | count + 1, cursor =>
    match next cursor with
    | (none, _) => none
    | (some view, cursor) => (readCount next count cursor).map fun rest => (view :: rest.1, rest.2)

/-- The views of records that stand one after the other. -/
def viewsFrom (size : ρ → ℕ) (view : ρ → ℕ → ν) : ℕ → List ρ → List ν
  | _, [] => []
  | offset, record :: records =>
    view record offset :: viewsFrom size view (offset + size record) records

variable (format : RecordFormat α ρ) {Valid : ρ → Prop} {xs : List α} {offset index limit : ℕ}
  {records : List ρ} {view : ρ → ℕ → ν}

/-- A cursor that steps over each record walks over the records to the end. -/
theorem readCount_eq {next : γ → Option ν × γ} (cursor : ℕ → ℕ → γ)
    (steps : ∀ {offset index record}, format.At xs offset record → Valid record → index < limit →
      next (cursor offset index) =
        (some (view record offset), cursor (offset + format.size record) (index + 1)))
    (stand : format.SeqAt xs offset records) (valid : ∀ record ∈ records, Valid record)
    (more : index + records.length ≤ limit) :
    readCount next records.length (cursor offset index) =
      some (viewsFrom format.size view offset records,
        cursor xs.length (index + records.length)) := by
  induction records generalizing offset index with
  | nil =>
    have ends : offset = xs.length := stand
    simp [readCount, viewsFrom, ends]
  | cons record records ih =>
    rw [length_cons] at more
    obtain ⟨here, later⟩ := forall_mem_cons.mp valid
    have rest := ih stand.2 later (show index + 1 + records.length ≤ limit by omega)
    rw [length_cons, readCount, steps stand.1 here (by omega)]
    simp only [rest, Option.map_some, viewsFrom, Option.some.injEq, Prod.mk.injEq, true_and]
    congr 1
    omega

/-- Views that show their record show the records. -/
theorem viewsFrom_map {show_ : ν → ρ}
    (shows : ∀ {offset record}, format.At xs offset record → Valid record →
      show_ (view record offset) = record)
    (stand : format.SeqAt xs offset records) (valid : ∀ record ∈ records, Valid record) :
    (viewsFrom format.size view offset records).map show_ = records := by
  induction records generalizing offset with
  | nil => rfl
  | cons record records ih =>
    obtain ⟨here, later⟩ := forall_mem_cons.mp valid
    rw [viewsFrom, map_cons, shows stand.1 here, ih stand.2 later]

/-! ### Spans -/

/-- A part of a list, by place and length. -/
structure Span where
  offset : ℕ
  size : ℕ
  deriving DecidableEq, Repr

def Span.of (span : Span) (xs : List α) : List α := slice xs span.offset span.size

def Span.Inside (span : Span) (xs : List α) : Prop := span.offset + span.size ≤ xs.length

/-- The first span ends before the second begins. -/
def Span.Before (left right : Span) : Prop := left.offset + left.size ≤ right.offset

/-- If the spans of a record stand in its bytes in order, then so do those of all records. -/
theorem viewsFrom_spans {spans : ν → List Span}
    (inOrder : ∀ {offset record}, format.At xs offset record → Valid record →
      (spans (view record offset)).Pairwise Span.Before ∧
        ∀ span ∈ spans (view record offset),
          offset ≤ span.offset ∧ span.offset + span.size ≤ offset + format.size record)
    (stand : format.SeqAt xs offset records) (valid : ∀ record ∈ records, Valid record) :
    ((viewsFrom format.size view offset records).flatMap spans).Pairwise Span.Before ∧
      ∀ span ∈ (viewsFrom format.size view offset records).flatMap spans,
        offset ≤ span.offset ∧ span.Inside xs := by
  induction records generalizing offset with
  | nil => simp [viewsFrom]
  | cons record records ih =>
    obtain ⟨first, later⟩ := forall_mem_cons.mp valid
    obtain ⟨ordered, within⟩ := ih stand.2 later
    obtain ⟨here, bounds⟩ := inOrder stand.1 first
    have fits := format.fits stand.1
    rw [viewsFrom, flatMap_cons]
    refine ⟨pairwise_append.mpr ⟨here, ordered, ?_⟩, ?_⟩
    · intro left first right later
      have ends := (bounds left first).2
      have begins := (within right later).1
      exact ends.trans begins
    · intro span member
      rcases mem_append.mp member with first | later
      · have place := bounds span first
        exact ⟨place.1, by unfold Span.Inside; omega⟩
      · have place := within span later
        exact ⟨by omega, place.2⟩

end Reading

end RtRuntime

