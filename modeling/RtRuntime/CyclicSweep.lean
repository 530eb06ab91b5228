import RtRuntime.ListChanges

/-!
# Intervals of a repeated schedule, swept in one period

A schedule of half-open intervals is repeated with a fixed period. An interval may cross
the end of the period, but is never longer than one. How many intervals are open at an
instant of the unbounded repetition is read off one period (`openAt_eq_steady`), and one
pass over the sorted ends and starts of a single period, begun with the intervals that
cross the seam, visits these numbers (`demand_le_steady`, `steady_le_demand`).
-/

namespace RtRuntime

open List

/-- Intervals `[start, stop)` that repeat with the period. -/
structure CyclicSchedule (ι : Type) where
  period : ℕ
  items : List ι
  start : ι → ℕ
  stop : ι → ℕ
  nodup : items.Nodup
  start_lt : ∀ i ∈ items, start i < period
  start_lt_stop : ∀ i ∈ items, start i < stop i
  stop_le : ∀ i ∈ items, stop i ≤ start i + period

namespace CyclicSchedule

variable {ι : Type} (s : CyclicSchedule ι) (q : ι → Bool)

/-! ## The unbounded repetition -/

/-- The item is open at instant `t` in its repetition `c`. -/
def openIn (c t : ℕ) (i : ι) : Bool :=
  c * s.period + s.start i ≤ t && t < c * s.period + s.stop i

/-- The number of open items with `q` at instant `t`, over all repetitions begun by `t`. -/
def openAt (t : ℕ) : ℕ :=
  ∑ c ∈ Finset.range (t + 1), s.items.countP fun i => q i && s.openIn c t i

/-- The number of items with `q` that stop exactly at instant `t`. -/
def stopsAt (t : ℕ) : ℕ :=
  ∑ c ∈ Finset.range (t + 1), s.items.countP fun i => q i && c * s.period + s.stop i = t

/-- The item crosses the end of the period. -/
def carries (i : ι) : Bool := s.period < s.stop i

/-- The item is open at offset `x` of a period that was preceded by another. -/
def openSteady (x : ℕ) (i : ι) : Bool :=
  (s.start i ≤ x && x < s.stop i) || x + s.period < s.stop i

/-- The number of open items at offset `x` once the schedule has gone round. -/
def steady (x : ℕ) : ℕ := s.items.countP fun i => q i && s.openSteady x i

/-- The number of items with `q` that cross the seam. -/
def carry : ℕ := s.items.countP fun i => q i && s.carries i

variable {s q}

theorem period_pos {i : ι} (hi : i ∈ s.items) : 0 < s.period :=
  Nat.zero_lt_of_lt (s.start_lt i hi)

/-- An item is open only in the current repetition and the one before. -/
theorem openIn_eq_false {c t : ℕ} {i : ι} (hi : i ∈ s.items) (hc : c ≠ t / s.period)
    (hc' : c + 1 ≠ t / s.period) : s.openIn c t i = false := by
  have hpos := period_pos hi
  have hdiv := Nat.div_add_mod' t s.period
  have hmod := Nat.mod_lt t hpos
  have h1 := s.start_lt i hi
  have h2 := s.stop_le i hi
  simp only [openIn, Bool.and_eq_false_iff, decide_eq_false_iff_not, not_le, not_lt]
  rcases Nat.lt_or_gt_of_ne hc with hlt | hgt
  · right
    have hmul : (c + 2) * s.period ≤ t / s.period * s.period := Nat.mul_le_mul_right _ (by omega)
    rw [Nat.add_mul] at hmul
    omega
  · left
    have hmul : (t / s.period + 1) * s.period ≤ c * s.period := Nat.mul_le_mul_right _ hgt
    rw [Nat.add_mul] at hmul
    omega

theorem openIn_current {t : ℕ} {i : ι} :
    s.openIn (t / s.period) t i =
      (s.start i ≤ t % s.period && t % s.period < s.stop i) := by
  have hdiv := Nat.div_add_mod' t s.period
  rw [openIn]
  congr 1 <;> exact decide_eq_decide.mpr (by omega)

theorem openIn_previous {c t : ℕ} {i : ι} (hi : i ∈ s.items) (hc : c + 1 = t / s.period) :
    s.openIn c t i = decide (t % s.period + s.period < s.stop i) := by
  have hdiv := Nat.div_add_mod' t s.period
  have hmul : t / s.period * s.period = c * s.period + s.period := by rw [← hc, Nat.succ_mul]
  have h1 := s.start_lt i hi
  rw [openIn, Bool.and_eq_right_iff_imp.mpr]
  · exact decide_eq_decide.mpr (by omega)
  · exact fun _ => decide_eq_true (by omega)

/-- What crosses the seam is open at offset zero. -/
theorem carry_le_steady : s.carry q ≤ s.steady q 0 := by
  refine countP_mono_left fun i _ hi => ?_
  simp only [carries, openSteady, Bool.and_eq_true, Bool.or_eq_true, decide_eq_true_eq] at hi ⊢
  exact ⟨hi.1, Or.inr (by omega)⟩

/-- Current and previous repetition together give the steady count. -/
theorem steady_eq_add (t : ℕ) : s.steady q (t % s.period) =
    (s.items.countP fun i =>
      q i && (s.start i ≤ t % s.period && t % s.period < s.stop i)) +
    s.items.countP fun i => q i && decide (t % s.period + s.period < s.stop i) := by
  -- the two conditions exclude each other
  rw [steady, countP_eq_countP_filter_add _ _ fun i => decide (s.stop i ≤ t % s.period + s.period),
    countP_filter, countP_filter]
  congr 1 <;> refine countP_congr fun i hi => ?_ <;> have := s.stop_le i hi <;>
    grind [openSteady]

theorem openAt_current (t : ℕ) (ht : t / s.period = 0) : s.openAt q t =
    s.items.countP fun i => q i && (s.start i ≤ t % s.period && t % s.period < s.stop i) := by
  rw [openAt, Finset.sum_eq_single_of_mem 0 (Finset.mem_range.mpr (Nat.succ_pos t))]
  · refine countP_congr fun i hi => ?_
    rw [← ht, openIn_current]
  · intro c _ hc
    refine countP_eq_zero.mpr fun i hi => ?_
    rw [openIn_eq_false hi (by omega) (by omega)]
    simp

/-- From the second repetition on, an instant sees the steady count of its offset. -/
theorem openAt_eq_steady {t : ℕ} (hpos : 0 < s.period) (ht : s.period ≤ t) :
    s.openAt q t = s.steady q (t % s.period) := by
  have hdiv : 0 < t / s.period := Nat.div_pos ht hpos
  have hle : t / s.period ≤ t := Nat.div_le_self _ _
  obtain ⟨c, hc⟩ : ∃ c, c + 1 = t / s.period := ⟨t / s.period - 1, by omega⟩
  rw [openAt, Finset.sum_eq_add (t / s.period) c (by omega), steady_eq_add]
  · congr 1
    · refine countP_congr fun i hi => ?_
      rw [openIn_current]
    · refine countP_congr fun i hi => ?_
      rw [openIn_previous hi hc]
  · intro d _ hd
    refine countP_eq_zero.mpr fun i hi => ?_
    rw [openIn_eq_false hi hd.1 (by omega)]
    simp
  · exact fun hn => absurd (Finset.mem_range.mpr (by omega)) hn
  · exact fun hn => absurd (Finset.mem_range.mpr (by omega)) hn

/-- No instant sees more than the steady count of its offset. -/
theorem openAt_le_steady (t : ℕ) (hpos : 0 < s.period) :
    s.openAt q t ≤ s.steady q (t % s.period) := by
  rcases Nat.lt_or_ge t s.period with hlt | hge
  · rw [openAt_current t (Nat.div_eq_of_lt hlt), steady_eq_add]
    exact Nat.le_add_right _ _
  · exact (openAt_eq_steady hpos hge).le

/-- The items with `q` that stop at an offset. -/
def stopsSteady (s : CyclicSchedule ι) (q : ι → Bool) (x : ℕ) : ℕ :=
  s.items.countP fun i => q i && s.stop i % s.period = x

/-- Each item stops at an instant in at most one repetition. -/
theorem stopsAt_eq (t : ℕ) (hpos : 0 < s.period) : s.stopsAt q t =
    s.items.countP fun i =>
      q i && (decide (s.stop i % s.period = t % s.period) && decide (s.stop i ≤ t)) := by
  have hitems : ∀ l : List ι, ∑ c ∈ Finset.range (t + 1),
      (l.countP fun i => q i && decide (c * s.period + s.stop i = t)) =
      l.countP fun i =>
        q i && (decide (s.stop i % s.period = t % s.period) && decide (s.stop i ≤ t)) := by
    intro l
    induction l with
    | nil => simp
    | cons i l ih =>
      simp only [countP_cons, Finset.sum_add_distrib, ih]
      congr 1
      cases hq : q i with
      | false => simp
      | true =>
        simp only [Bool.true_and, decide_eq_true_eq, Bool.and_eq_true]
        by_cases hle : s.stop i % s.period = t % s.period ∧ s.stop i ≤ t
        · obtain ⟨hmod, hle⟩ := hle
          -- the repetition is the distance in periods
          have hdvd : s.period ∣ t - s.stop i :=
            Nat.dvd_of_mod_eq_zero (Nat.sub_mod_eq_zero_of_mod_eq hmod.symm)
          obtain ⟨c, hc⟩ := hdvd
          have hct : c * s.period + s.stop i = t := by
            rw [mul_comm]
            omega
          have hclt : c < t + 1 := by
            have : c * 1 ≤ c * s.period := Nat.mul_le_mul_left _ hpos
            omega
          rw [if_pos ⟨hmod, hle⟩, Finset.sum_eq_single_of_mem c (Finset.mem_range.mpr hclt),
            if_pos hct]
          intro d _ hd
          refine if_neg fun hdt => hd ?_
          have : d * s.period = c * s.period := by omega
          exact Nat.eq_of_mul_eq_mul_right hpos this
        · rw [if_neg hle]
          refine Finset.sum_eq_zero fun c _ => if_neg fun hct => hle ⟨?_, by omega⟩
          rw [← hct, Nat.mul_add_mod']
  exact hitems s.items

theorem stopsAt_le (t : ℕ) (hpos : 0 < s.period) :
    s.stopsAt q t ≤ s.stopsSteady q (t % s.period) := by
  rw [stopsAt_eq t hpos]
  refine countP_mono_left fun i _ hi => ?_
  simp only [Bool.and_eq_true, decide_eq_true_eq] at hi ⊢
  exact ⟨hi.1, hi.2.1⟩

/-- In the second repetition every item that stops at an offset is seen to. -/
theorem stopsAt_eq_steady {x : ℕ} (hx : x < s.period) :
    s.stopsAt q (s.period + x) = s.stopsSteady q x := by
  have hpos : 0 < s.period := Nat.zero_lt_of_lt hx
  rw [stopsAt_eq _ hpos, stopsSteady]
  refine countP_congr fun i hi => ?_
  have h1 := s.start_lt i hi
  have h2 := s.stop_le i hi
  have hmod : (s.period + x) % s.period = x := by
    rw [Nat.add_mod_left, Nat.mod_eq_of_lt hx]
  simp only [hmod, Bool.and_eq_true, decide_eq_true_eq]
  refine ⟨fun h => ⟨h.1, h.2.1⟩, fun h => ⟨h.1, h.2, ?_⟩⟩
  have hdiv := Nat.div_add_mod' (s.stop i) s.period
  have hlt : s.stop i / s.period < 2 := Nat.div_lt_of_lt_mul (by omega)
  have hmul : s.stop i / s.period * s.period ≤ 1 * s.period := Nat.mul_le_mul_right _ (by omega)
  omega

end CyclicSchedule

/-! ## One pass over the events of a period -/

/-- A start (`release`) or a stop of an item. -/
structure SweepEvent (ι : Type) where
  time : ℕ
  release : Bool
  item : ι
  deriving DecidableEq, Repr

/-- Events are taken by time, and stops before starts at one time. -/
def SweepEvent.Before {ι : Type} (e f : SweepEvent ι) : Prop :=
  e.time < f.time ∨ (e.time = f.time ∧ (e.release = true → f.release = true))

namespace CyclicSchedule

variable {ι : Type}

/-- The start of an item within the period. -/
def startEvent (s : CyclicSchedule ι) (i : ι) : SweepEvent ι := ⟨s.start i, true, i⟩

/-- Its stop, taken back into the period when the item crosses the seam. -/
def stopEvent (s : CyclicSchedule ι) (i : ι) : SweepEvent ι :=
  ⟨if s.carries i then s.stop i - s.period else s.stop i, false, i⟩

/-- The sorted events of one period. -/
structure IsSweep (s : CyclicSchedule ι) (events : List (SweepEvent ι)) : Prop where
  mem : ∀ e, e ∈ events ↔ ∃ i ∈ s.items, e = s.startEvent i ∨ e = s.stopEvent i
  nodup : events.Nodup
  sorted : events.Pairwise SweepEvent.Before

/-- The item counts as open after the events in `done`. -/
def openAfter [DecidableEq ι] (s : CyclicSchedule ι) (done : List (SweepEvent ι)) (i : ι) : Bool :=
  if s.carries i then s.stopEvent i ∉ done || s.startEvent i ∈ done
  else s.startEvent i ∈ done && s.stopEvent i ∉ done

/-- The number of open items with `q` after the events in `done`. -/
def demand [DecidableEq ι] (s : CyclicSchedule ι) (q : ι → Bool) (done : List (SweepEvent ι)) : ℕ :=
  s.items.countP fun i => q i && s.openAfter done i

variable {s : CyclicSchedule ι} {q : ι → Bool} {events done rest : List (SweepEvent ι)}
  {e : SweepEvent ι}

/-- The last element of a list with a property, if there is one. -/
theorem exists_last {α : Type} (p : α → Bool) (l : List α) :
    (∀ a ∈ l, ¬ p a = true) ∨
      ∃ before a after, l = before ++ a :: after ∧ p a = true ∧ ∀ b ∈ after, ¬ p b = true := by
  induction l with
  | nil => exact Or.inl fun a ha => absurd ha not_mem_nil
  | cons a l ih =>
    rcases ih with hnone | ⟨before, b, after, rfl, hb, hafter⟩
    · by_cases ha : p a = true
      · exact Or.inr ⟨[], a, l, rfl, ha, hnone⟩
      · exact Or.inl fun b hb => (mem_cons.mp hb).elim (fun h => h ▸ ha) (hnone b)
    · exact Or.inr ⟨a :: before, b, after, rfl, hb, hafter⟩

/-- The pass begins with the items that cross the seam. -/
theorem demand_nil [DecidableEq ι] : s.demand q [] = s.carry q := by
  refine countP_congr fun i _ => ?_
  simp [openAfter]

namespace IsSweep

variable (h : s.IsSweep events)
include h

theorem event_cases (he : e ∈ events) :
    e.item ∈ s.items ∧ (e = s.startEvent e.item ∨ e = s.stopEvent e.item) := by
  obtain ⟨i, hi, rfl | rfl⟩ := (h.mem e).mp he
  · exact ⟨hi, Or.inl rfl⟩
  · exact ⟨hi, Or.inr rfl⟩

theorem event_of_release (he : e ∈ events) (hr : e.release = true) : e = s.startEvent e.item := by
  rcases (h.event_cases he).2 with heq | heq
  · exact heq
  · rw [heq] at hr
    cases hr

/-- What does not come after an event that was taken was taken too. -/
theorem mem_of_not_before {f g : SweepEvent ι} (hsplit : events = done ++ rest) (hf : f ∈ events)
    (hg : g ∈ done) (hbefore : ¬ g.Before f) : f ∈ done := by
  have hsorted := h.sorted
  rw [hsplit] at hf hsorted
  exact (mem_append.mp hf).resolve_right fun hr =>
    hbefore ((pairwise_append.mp hsorted).2.2 g hg f hr)

/-- An item that crosses the seam stops before it starts, and any other one after. -/
theorem ordered (hsplit : events = done ++ rest) {i : ι} (hi : i ∈ s.items) :
    if s.carries i then s.startEvent i ∈ done → s.stopEvent i ∈ done
    else s.stopEvent i ∈ done → s.startEvent i ∈ done := by
  have hlt := s.start_lt_stop i hi
  have hle := s.stop_le i hi
  split
  next hc =>
    refine fun hd => h.mem_of_not_before hsplit ((h.mem _).mpr ⟨i, hi, .inr rfl⟩) hd ?_
    simp only [SweepEvent.Before, startEvent, stopEvent, hc]
    simp only [if_true, true_implies, Bool.false_eq_true, and_false, or_false, not_lt]
    omega
  next hc =>
    refine fun hd => h.mem_of_not_before hsplit ((h.mem _).mpr ⟨i, hi, .inl rfl⟩) hd ?_
    simp only [SweepEvent.Before, startEvent, stopEvent, hc, Bool.false_eq_true, if_false]
    omega

variable (hsplit : events = done ++ e :: rest)
include hsplit

theorem current_not_mem : e ∉ done := by
  have hnodup := h.nodup
  rw [hsplit] at hnodup
  exact fun hd => (nodup_append.mp hnodup).2.2 e hd e (by simp) rfl

/-- What precedes the current event was taken before it. -/
theorem before_of_mem {f : SweepEvent ι} (hf : f ∈ done) : f.Before e := by
  have hsorted := h.sorted
  rw [hsplit] at hsorted
  exact (pairwise_append.mp hsorted).2.2 f hf e (by simp)

theorem time_le : ∀ f ∈ done ++ [e], f.time ≤ e.time :=
  forall_mem_concat.mpr ⟨fun _ hf => (h.before_of_mem hsplit hf).elim le_of_lt fun h => h.1.le, le_rfl⟩

/-- An event opens its item if it is a start and closes it if it is a stop, and the item was not
in that state before: no counter runs below zero. -/
theorem openAfter_flips [DecidableEq ι] :
    s.openAfter done e.item = !e.release ∧ s.openAfter (done ++ [e]) e.item = e.release := by
  have hnot := h.current_not_mem hsplit
  have hnext : events = (done ++ [e]) ++ rest := by rw [hsplit, append_cons]
  obtain ⟨i, hi, he⟩ := (h.mem e).mp (by simp [hsplit])
  have hne : s.startEvent i ≠ s.stopEvent i := fun heq => by cases congrArg SweepEvent.release heq
  have hdone := h.ordered hsplit hi
  have hthen := h.ordered hnext hi
  rcases he with rfl | rfl <;> cases hc : s.carries i <;>
    simp_all [openAfter, startEvent, stopEvent]

omit h hsplit in
/-- An event concerns its own item only. -/
theorem openAfter_other [DecidableEq ι] {i : ι} (hi : i ≠ e.item) :
    s.openAfter (done ++ [e]) i = s.openAfter done i := by
  have h1 : s.startEvent i ≠ e := fun heq => hi (congrArg SweepEvent.item heq)
  have h2 : s.stopEvent i ≠ e := fun heq => hi (congrArg SweepEvent.item heq)
  simp [openAfter, h1, h2]

omit h hsplit in
/-- An event leaves the counters of other classes. -/
theorem demand_other [DecidableEq ι] (hq : q e.item = false) :
    s.demand q (done ++ [e]) = s.demand q done := by
  refine countP_congr fun j _ => ?_
  by_cases hj : j = e.item
  · simp [hj, hq]
  · rw [openAfter_other hj]

/-- An event of the class raises its counters by one if it is a start, and lowers them, which are
positive, if it is a stop. -/
theorem demand_step [DecidableEq ι] (hq : q e.item = true) :
    s.demand q (done ++ [e]) + (if e.release = false then 1 else 0) =
      s.demand q done + if e.release then 1 else 0 := by
  obtain ⟨hbefore, hafter⟩ := h.openAfter_flips hsplit
  have hcount := countP_update s.nodup (h.event_cases (e := e) (by simp [hsplit])).1
    (fun i => q i && s.openAfter done i) (fun i => q i && s.openAfter (done ++ [e]) i)
    fun j _ hj => by rw [openAfter_other hj]
  simpa [demand, hq, hbefore, hafter] using hcount

/-- After a start at time `x`, no more items count as open than are open at offset `x`. -/
theorem demand_le_steady [DecidableEq ι] (hr : e.release = true) :
    s.demand q (done ++ [e]) ≤ s.steady q e.time := by
  -- all stops up to the time of the start were taken
  have hstops : ∀ i ∈ s.items, s.stopEvent i ∉ done ++ [e] → e.time < (s.stopEvent i).time := by
    intro i hi hnot
    by_contra hle
    refine hnot (h.mem_of_not_before (by rw [hsplit, append_cons])
      ((h.mem _).mpr ⟨i, hi, Or.inr rfl⟩) (mem_append_right _ mem_cons_self) ?_)
    rintro (hlt | ⟨-, himp⟩)
    · exact hle hlt
    · exact absurd (himp hr) (by simp [stopEvent])
  have htime : e.time < s.period := by
    have hmem : e ∈ events := by simp [hsplit]
    rw [h.event_of_release hmem hr]
    exact s.start_lt _ (h.event_cases hmem).1
  refine countP_mono_left fun i hi hopen => ?_
  rw [Bool.and_eq_true] at hopen ⊢
  refine ⟨hopen.1, ?_⟩
  have hopen := hopen.2
  cases hc : s.carries i with
  | true =>
    have hstop : s.period < s.stop i := by simpa [carries] using hc
    simp only [openAfter, hc, if_true, Bool.or_eq_true, decide_eq_true_eq] at hopen
    rcases hopen with hnot | hstart
    · have hlt := hstops i hi hnot
      simp only [stopEvent, hc, if_true] at hlt
      have : e.time + s.period < s.stop i := by omega
      simp [openSteady, this]
    · have hle : s.start i ≤ e.time := h.time_le hsplit _ hstart
      have : e.time < s.stop i := by omega
      simp [openSteady, hle, this]
  | false =>
    simp only [openAfter, hc, Bool.false_eq_true, if_false, Bool.and_eq_true,
      decide_eq_true_eq] at hopen
    have hle : s.start i ≤ e.time := h.time_le hsplit _ hopen.1
    have hlt := hstops i hi hopen.2
    simp only [stopEvent, hc, Bool.false_eq_true, if_false] at hlt
    simp [openSteady, hle, hlt]

end IsSweep

section Complete

variable [DecidableEq ι] (h : s.IsSweep events)
include h

/-- At the end of the pass the counters are back where they began. -/
theorem IsSweep.demand_all : s.demand q events = s.carry q := by
  refine countP_congr fun i hi => ?_
  have h1 : s.startEvent i ∈ events := (h.mem _).mpr ⟨i, hi, Or.inl rfl⟩
  have h2 : s.stopEvent i ∈ events := (h.mem _).mpr ⟨i, hi, Or.inr rfl⟩
  cases hc : s.carries i <;> simp [openAfter, hc, h1, h2]

/-- What is open at an offset is counted: from the seam, or at the last start before. -/
theorem IsSweep.steady_le_demand (x : ℕ) :
    s.steady q x ≤ s.carry q ∨ ∃ done e rest, events = done ++ e :: rest ∧ e.release = true ∧
      q e.item = true ∧ s.steady q x ≤ s.demand q (done ++ [e]) := by
  let started : SweepEvent ι → Bool := fun e => e.release && q e.item && decide (e.time ≤ x)
  have hstarted : ∀ i ∈ s.items, q i = true → s.start i ≤ x →
      s.startEvent i ∈ events ∧ started (s.startEvent i) = true := by
    intro i hi hq hle
    exact ⟨(h.mem _).mpr ⟨i, hi, Or.inl rfl⟩, by simp [started, startEvent, hq, hle]⟩
  rcases exists_last started events with hnone | ⟨done, e, rest, hsplit, he, hlast⟩
  · left
    refine countP_mono_left fun i hi hopen => ?_
    simp only [openSteady, carries, Bool.and_eq_true, Bool.or_eq_true, decide_eq_true_eq]
      at hopen ⊢
    refine ⟨hopen.1, ?_⟩
    rcases hopen.2 with ⟨hle, -⟩ | hlt
    · obtain ⟨hmem, hst⟩ := hstarted i hi hopen.1 hle
      exact absurd hst (hnone _ hmem)
    · omega
  · right
    simp only [started, Bool.and_eq_true, decide_eq_true_eq] at he
    refine ⟨done, e, rest, hsplit, he.1.1, he.1.2, ?_⟩
    have htaken : ∀ i ∈ s.items, q i = true → s.start i ≤ x → s.startEvent i ∈ done ++ [e] := by
      intro i hi hq hle
      obtain ⟨hmem, hst⟩ := hstarted i hi hq hle
      rw [hsplit, append_cons] at hmem
      exact (mem_append.mp hmem).resolve_right fun hr => hlast _ hr hst
    have hnot : ∀ i, x < (s.stopEvent i).time → s.stopEvent i ∉ done ++ [e] :=
      fun i hlt hmem => absurd ((h.time_le hsplit _ hmem).trans he.2) hlt.not_ge
    refine countP_mono_left fun i hi hopen => ?_
    simp only [openSteady, Bool.and_eq_true, Bool.or_eq_true, decide_eq_true_eq] at hopen ⊢
    refine ⟨hopen.1, ?_⟩
    cases hc : s.carries i with
    | true =>
      simp only [openAfter, hc, if_true, Bool.or_eq_true, decide_eq_true_eq]
      rcases hopen.2 with ⟨hle, -⟩ | hlt
      · exact Or.inr (htaken i hi hopen.1 hle)
      · refine Or.inl (hnot i ?_)
        simp only [stopEvent, hc, if_true]
        omega
    | false =>
      have hstop : s.stop i ≤ s.period := by simpa [carries] using hc
      simp only [openAfter, hc, Bool.false_eq_true, if_false, Bool.and_eq_true, decide_eq_true_eq]
      rcases hopen.2 with ⟨hle, hlt⟩ | hlt
      · refine ⟨htaken i hi hopen.1 hle, hnot i ?_⟩
        simpa [stopEvent, hc] using hlt
      · omega

end Complete

/-! ## A counter and its peak -/

section Counter

variable [DecidableEq ι]

/-- A counter of the open items with `q`, and the peak of its values at the seam and at the
starts that raised it. -/
structure Follows (s : CyclicSchedule ι) (q : ι → Bool) (done : List (SweepEvent ι))
    (counter peak : ℕ) : Prop where
  counter_eq : counter = s.demand q done
  carry_le : s.carry q ≤ peak
  start_le : ∀ d e r, done = d ++ e :: r → e.release = true → q e.item = true →
    s.demand q (d ++ [e]) ≤ peak
  reached : peak = s.carry q ∨ ∃ d e r, done = d ++ e :: r ∧ e.release = true ∧
    peak = s.demand q (d ++ [e])

theorem Follows.begin : s.Follows q [] (s.carry q) (s.carry q) :=
  ⟨demand_nil.symm, le_rfl, by simp, Or.inl rfl⟩

section Step

variable {counter peak : ℕ} (h : s.IsSweep events) (hsplit : events = done ++ e :: rest)
  (hf : s.Follows q done counter peak)
include h hsplit hf

omit h hsplit in
/-- What the peak was reached at stays in the past. -/
theorem Follows.reached_before : peak = s.carry q ∨ ∃ d f r, done ++ [e] = d ++ f :: r ∧
    f.release = true ∧ peak = s.demand q (d ++ [f]) := by
  rcases hf.reached with hc | ⟨d, f, r, hd, hfr, hp⟩
  · exact Or.inl hc
  · exact Or.inr ⟨d, f, r ++ [e], by simp [hd], hfr, hp⟩

omit h hsplit in
/-- An event of another class. -/
theorem Follows.other (hq : q e.item = false) : s.Follows q (done ++ [e]) counter peak := by
  refine ⟨hf.counter_eq.trans (IsSweep.demand_other hq).symm, hf.carry_le, fun d f r hd hfr hfq => ?_,
    hf.reached_before⟩
  rcases concat_split hd with ⟨-, rfl, -⟩ | ⟨r', -, hd'⟩
  · rw [hq] at hfq
    cases hfq
  · exact hf.start_le d f r' hd' hfr hfq

/-- A start of the class raises the counter and may raise the peak. -/
theorem Follows.start (hq : q e.item = true) (hr : e.release = true) :
    s.Follows q (done ++ [e]) (counter + 1) (max peak (counter + 1)) := by
  have hd : counter + 1 = s.demand q (done ++ [e]) := by
    simpa [hr, hf.counter_eq] using (h.demand_step hsplit hq).symm
  refine ⟨hd, hf.carry_le.trans (le_max_left _ _), fun d f r hdf hfr hfq => ?_, ?_⟩
  · rcases concat_split hdf with ⟨rfl, rfl, -⟩ | ⟨r', -, hd'⟩
    · exact hd.symm.le.trans (le_max_right _ _)
    · exact (hf.start_le d f r' hd' hfr hfq).trans (le_max_left _ _)
  · rcases le_total (counter + 1) peak with hle | hle
    · rw [max_eq_left hle]
      exact hf.reached_before
    · rw [max_eq_right hle]
      exact Or.inr ⟨done, e, [], rfl, hr, hd⟩

/-- A stop of the class finds the counter positive and lowers it. -/
theorem Follows.stop (hq : q e.item = true) (hr : e.release = false) :
    0 < counter ∧ s.Follows q (done ++ [e]) (counter - 1) peak := by
  have hd := h.demand_step hsplit hq
  simp only [hr, ← hf.counter_eq, if_true, Bool.false_eq_true, if_false] at hd
  refine ⟨by omega, by omega, hf.carry_le, fun d f r hdf hfr hfq => ?_,
    hf.reached_before⟩
  rcases concat_split hdf with ⟨-, rfl, -⟩ | ⟨r', -, hd'⟩
  · rw [hr] at hfr
    cases hfr
  · exact hf.start_le d f r' hd' hfr hfq

end Step

/-- At the end of the pass the peak is the greatest number of open items at any instant. -/
theorem Follows.isGreatest {counter peak : ℕ} (h : s.IsSweep events) (hpos : 0 < s.period)
    (hf : s.Follows q events counter peak) : IsGreatest (Set.range (s.openAt q)) peak := by
  have hle : ∀ x, s.steady q x ≤ peak := by
    intro x
    rcases h.steady_le_demand (q := q) x with hc | ⟨done, e, rest, hsplit, hr, hq, hd⟩
    · exact hc.trans hf.carry_le
    · exact hd.trans (hf.start_le done e rest hsplit hr hq)
  have hreached : ∃ x < s.period, peak ≤ s.steady q x := by
    rcases hf.reached with hc | ⟨done, e, rest, hsplit, hr, hd⟩
    · exact ⟨0, hpos, hc.le.trans carry_le_steady⟩
    · have hmem : e ∈ events := by simp [hsplit]
      refine ⟨e.time, ?_, hd.le.trans (h.demand_le_steady hsplit hr)⟩
      rw [h.event_of_release hmem hr]
      exact s.start_lt _ (h.event_cases hmem).1
  refine ⟨?_, ?_⟩
  · obtain ⟨x, hx, hpeak⟩ := hreached
    refine ⟨s.period + x, ?_⟩
    rw [openAt_eq_steady hpos (Nat.le_add_right _ _), Nat.add_mod_left, Nat.mod_eq_of_lt hx]
    exact le_antisymm (hle x) hpeak
  · rintro _ ⟨t, rfl⟩
    exact (openAt_le_steady t hpos).trans (hle _)

theorem demand_le_length : s.demand q done ≤ s.items.length := countP_le_length

end Counter

/-! ## Renaming the items -/

section Rename

variable {κ : Type} {u : CyclicSchedule κ} {f : ι → κ}

/-- The same intervals under other names. -/
structure Renames (s : CyclicSchedule ι) (u : CyclicSchedule κ) (f : ι → κ) : Prop where
  period : u.period = s.period
  items : u.items = s.items.map f
  start : ∀ i ∈ s.items, u.start (f i) = s.start i
  stop : ∀ i ∈ s.items, u.stop (f i) = s.stop i

theorem Renames.openAt (h : s.Renames u f) (q : κ → Bool) (t : ℕ) :
    u.openAt q t = s.openAt (fun i => q (f i)) t := by
  refine Finset.sum_congr rfl fun c _ => ?_
  rw [h.items, countP_map]
  refine countP_congr fun i hi => ?_
  simp only [Function.comp, openIn, h.period, h.start i hi, h.stop i hi]

theorem Renames.stopsAt (h : s.Renames u f) (q : κ → Bool) (t : ℕ) :
    u.stopsAt q t = s.stopsAt (fun i => q (f i)) t := by
  refine Finset.sum_congr rfl fun c _ => ?_
  rw [h.items, countP_map]
  refine countP_congr fun i hi => ?_
  simp only [Function.comp, h.period, h.stop i hi]

theorem openAt_congr {p q : ι → Bool} (h : ∀ i ∈ s.items, p i = q i) (t : ℕ) :
    s.openAt p t = s.openAt q t :=
  Finset.sum_congr rfl fun c _ => countP_congr fun i hi => by rw [h i hi]

theorem stopsAt_congr {p q : ι → Bool} (h : ∀ i ∈ s.items, p i = q i) (t : ℕ) :
    s.stopsAt p t = s.stopsAt q t :=
  Finset.sum_congr rfl fun c _ => countP_congr fun i hi => by rw [h i hi]

end Rename

end CyclicSchedule

end RtRuntime

