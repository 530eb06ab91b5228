import Mathlib.Data.List.Forall2
import Mathlib.Tactic.Linarith

/-!
# Jobs on a single lane

Jobs run one after another in the order of a list. Each starts at the later of its
release and the finish of the job before it. The two facts a scheduler wants from this
are monotonicity, so that the worst case may be simulated in place of the actual run, and
periodicity: a batch that meets its deadlines and leaves the lane idle at the end of its
period does so in every repetition.
-/

namespace RtRuntime

/-- A job with absolute release time and deadline. -/
structure Job where
  release : ℕ
  cost : ℕ
  deadline : ℕ
  deriving DecidableEq, Repr

namespace Job

/-- The job one or more periods later. -/
def shift (t : ℕ) (j : Job) : Job := ⟨j.release + t, j.cost, j.deadline + t⟩

/-- Finish of the job when the lane is free from `start` on. -/
def finish (start : ℕ) (j : Job) : ℕ := max start j.release + j.cost

/-- `j` is `k` with at most its cost. -/
structure Within (j k : Job) : Prop where
  release : j.release = k.release
  cost : j.cost ≤ k.cost
  deadline : j.deadline = k.deadline

theorem Within.finish_le {j k : Job} (h : j.Within k) {s t : ℕ} (hst : s ≤ t) :
    j.finish s ≤ k.finish t := by
  have hmax : max s j.release ≤ max t k.release := max_le_max hst h.release.le
  exact Nat.add_le_add hmax h.cost

theorem finish_shift (t s : ℕ) (j : Job) : (j.shift t).finish (s + t) = j.finish s + t := by
  simp only [finish, shift, Nat.add_max_add_right]
  omega

end Job

/-- Finish of the last job. -/
def laneFinish (start : ℕ) (jobs : List Job) : ℕ := jobs.foldl Job.finish start

/-- Every job finishes by its deadline. -/
def MeetsDeadlines : ℕ → List Job → Prop
  | _, [] => True
  | start, j :: jobs => j.finish start ≤ j.deadline ∧ MeetsDeadlines (j.finish start) jobs

instance MeetsDeadlines.decidable : ∀ start jobs, Decidable (MeetsDeadlines start jobs)
  | _, [] => isTrue trivial
  | start, j :: jobs =>
    have := MeetsDeadlines.decidable (j.finish start) jobs
    inferInstanceAs (Decidable (_ ∧ _))

variable {jobs jobs' : List Job}

theorem meetsDeadlines_append {start : ℕ} :
    MeetsDeadlines start (jobs ++ jobs') ↔
      MeetsDeadlines start jobs ∧ MeetsDeadlines (laneFinish start jobs) jobs' := by
  induction jobs generalizing start with
  | nil => simp [MeetsDeadlines, laneFinish]
  | cons j jobs ih =>
    rw [List.cons_append, MeetsDeadlines, ih, MeetsDeadlines, and_assoc]
    rfl

theorem laneFinish_append (start : ℕ) (jobs jobs' : List Job) :
    laneFinish start (jobs ++ jobs') = laneFinish (laneFinish start jobs) jobs' :=
  List.foldl_append

/-- An earlier start and smaller costs never finish later. -/
theorem laneFinish_mono (h : List.Forall₂ Job.Within jobs jobs') {s t : ℕ} (hst : s ≤ t) :
    laneFinish s jobs ≤ laneFinish t jobs' := by
  induction h generalizing s t with
  | nil => exact hst
  | cons hj _ ih => exact ih (hj.finish_le hst)

/-- What the worst case meets, every smaller run meets. -/
theorem MeetsDeadlines.mono (h : List.Forall₂ Job.Within jobs jobs') {s t : ℕ} (hst : s ≤ t)
    (hmeets : MeetsDeadlines t jobs') : MeetsDeadlines s jobs := by
  induction h generalizing s t with
  | nil => trivial
  | cons hj _ ih =>
    refine ⟨?_, ih (hj.finish_le hst) hmeets.2⟩
    rw [hj.deadline]
    exact (hj.finish_le hst).trans hmeets.1

theorem laneFinish_shift (t s : ℕ) (jobs : List Job) :
    laneFinish (s + t) (jobs.map (Job.shift t)) = laneFinish s jobs + t := by
  induction jobs generalizing s with
  | nil => rfl
  | cons j jobs ih =>
    rw [List.map_cons, laneFinish, List.foldl_cons, Job.finish_shift]
    exact ih (j.finish s)

theorem meetsDeadlines_shift {t s : ℕ} :
    MeetsDeadlines (s + t) (jobs.map (Job.shift t)) ↔ MeetsDeadlines s jobs := by
  induction jobs generalizing s with
  | nil => exact Iff.rfl
  | cons j jobs ih =>
    rw [List.map_cons, MeetsDeadlines, Job.finish_shift, ih, MeetsDeadlines]
    exact and_congr_left fun _ => Nat.add_le_add_iff_right

/-- A batch that meets its deadlines and leaves the lane idle at the end of the period
meets them in every repetition, whatever its jobs really cost. -/
theorem meetsDeadlines_periodic {period : ℕ} {worst : List Job} (hmeets : MeetsDeadlines 0 worst)
    (hidle : laneFinish 0 worst ≤ period) {actual : ℕ → List Job}
    (hwithin : ∀ c, List.Forall₂ Job.Within (actual c) (worst.map (Job.shift (c * period))))
    (cycles : ℕ) :
    MeetsDeadlines 0 ((List.range cycles).flatMap actual) ∧
      laneFinish 0 ((List.range cycles).flatMap actual) ≤ cycles * period := by
  induction cycles with
  | zero => exact ⟨trivial, Nat.zero_le _⟩
  | succ n ih =>
    obtain ⟨hmeets', hidle'⟩ := ih
    rw [List.range_succ, List.flatMap_append, List.flatMap_singleton]
    -- the cycle starts no later than the worst case of an idle lane
    have hstart : laneFinish 0 ((List.range n).flatMap actual) ≤ 0 + n * period := by
      rwa [Nat.zero_add]
    refine ⟨meetsDeadlines_append.mpr ⟨hmeets', ?_⟩, ?_⟩
    · exact (meetsDeadlines_shift.mpr hmeets).mono (hwithin n) hstart
    · rw [laneFinish_append, Nat.succ_mul]
      calc laneFinish _ (actual n)
          ≤ laneFinish (0 + n * period) (worst.map (Job.shift (n * period))) :=
            laneFinish_mono (hwithin n) hstart
        _ = laneFinish 0 worst + n * period := laneFinish_shift _ _ _
        _ ≤ n * period + period := by omega

end RtRuntime
