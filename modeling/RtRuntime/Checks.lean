import Mathlib.Tactic

/-!
# Validation in the `Except` monad

The compilers of the runtime validate their input check by check and return at
the first failure. They are written here in `Except ε`, with `reject c e` for
"if `c`, return the error `e`". The inversion lemmas of this file peel such a
function apart in both directions: `bind_eq_ok` and its companions say what a
successful run has established, `bind_eq_error` where a failed one stopped, and
the `foldlM` and `forM` rules do the same for validating loops.
-/

namespace RtRuntime

open List

variable {ε α β σ : Type}

/-- Return the error `e` if `c` holds, otherwise continue. -/
def reject (c : Prop) [Decidable c] (e : ε) : Except ε Unit :=
  if c then .error e else .ok ()

/-- The value of an option, or the error `e` without one: a checked operation
whose failure is reported. -/
def orReject (x : Option α) (e : ε) : Except ε α :=
  match x with
  | some a => .ok a
  | none => .error e

variable {e : ε} {c : Prop}

@[simp] theorem reject_eq_ok [Decidable c] {u : Unit} :
    reject c e = .ok u ↔ ¬ c := by
  unfold reject
  split <;> simp_all

@[simp] theorem reject_eq_error [Decidable c] {d : ε} :
    reject c e = .error d ↔ c ∧ e = d := by
  unfold reject
  split <;> simp_all

@[simp] theorem orReject_eq_ok {x : Option α} {a : α} :
    orReject x e = .ok a ↔ x = some a := by
  cases x <;> simp [orReject]

@[simp] theorem orReject_eq_error {x : Option α} {d : ε} :
    orReject x e = .error d ↔ x = none ∧ e = d := by
  cases x <;> simp [orReject]

variable {x : Except ε α}

theorem eq_ok_of_toOption {a : α} (h : x.toOption = some a) : x = .ok a := by
  cases x with
  | ok b => rw [Option.some.inj h]
  | error e => cases h

/-! ## Sequencing -/

variable {f : α → Except ε β}

theorem bind_eq_ok {b : β} :
    (x >>= f) = .ok b ↔ ∃ a, x = .ok a ∧ f a = .ok b := by
  cases x <;> simp [bind, Except.bind]

theorem bind_eq_error :
    (x >>= f) = .error e ↔ x = .error e ∨ ∃ a, x = .ok a ∧ f a = .error e := by
  cases x <;> simp [bind, Except.bind]

/-- A check followed by the rest of the function. -/
theorem reject_bind_eq_ok [Decidable c] {f : Unit → Except ε β} {b : β} :
    (reject c e >>= f) = .ok b ↔ ¬ c ∧ f () = .ok b := by
  by_cases h : c <;> simp [reject, h, bind, Except.bind]

theorem reject_bind_eq_error [Decidable c] {d : ε} {f : Unit → Except ε β} :
    (reject c e >>= f) = .error d ↔ (c ∧ e = d) ∨ (¬ c ∧ f () = .error d) := by
  by_cases h : c <;> simp [reject, h, bind, Except.bind]

/-! ## Outcomes -/

variable {l : List α} {s : σ}

/-- The computation returns a value with `P` or fails with an error that has `Q`. -/
def Ensures (x : Except ε α) (P : α → Prop) (Q : ε → Prop) : Prop :=
  match x with
  | .ok a => P a
  | .error e => Q e

namespace Ensures

variable {P P' : α → Prop} {Q Q' : ε → Prop} {R : β → Prop}

theorem of_ok {a : α} (h : Ensures x P Q) (hx : x = .ok a) : P a := by
  rw [hx] at h
  exact h

theorem of_error (h : Ensures x P Q) (hx : x = .error e) : Q e := by
  rw [hx] at h
  exact h

theorem mono (h : Ensures x P Q) (hP : ∀ a, P a → P' a) (hQ : ∀ e, Q e → Q' e) :
    Ensures x P' Q' := by
  cases x with
  | ok a => exact hP a h
  | error e => exact hQ e h

/-- The value that `P` is about is the one returned. -/
theorem returned (h : Ensures x P Q) :
    Ensures x (fun a => x = .ok a ∧ P a) Q := by
  cases x with
  | ok a => exact ⟨rfl, h⟩
  | error e => exact h

theorem bind (hx : Ensures x P Q) (hf : ∀ a, P a → Ensures (f a) R Q) : Ensures (x >>= f) R Q := by
  cases x with
  | ok a => exact hf a hx
  | error e => exact hx

theorem orReject {x : Option α} (hx : ∀ a, x = some a → P a) (he : x = none → Q e) :
    Ensures (RtRuntime.orReject x e) P Q := by
  cases x with
  | some a => exact hx a rfl
  | none => exact he rfl

/-- A check whose value the rest may take as it comes. -/
theorem orReject_bind {x : Option α} (he : Q e) (hf : ∀ a, Ensures (f a) R Q) :
    Ensures (RtRuntime.orReject x e >>= f) R Q := by
  cases x with
  | some a => exact hf a
  | none => exact he

/-- Invariant rule for a loop: `I` relates the elements processed so far to the state, and
every failing turn has `Q`. -/
theorem foldlM {f : σ → α → Except ε σ} {I : List α → σ → Prop} (hinit : I [] s)
    (hstep : ∀ done x rest t, l = done ++ x :: rest → I done t →
      Ensures (f t x) (I (done ++ [x])) Q) : Ensures (l.foldlM f s) (I l) Q := by
  suffices H : ∀ rest done t, l = done ++ rest → I done t →
      Ensures (rest.foldlM f t) (I l) Q from H l [] s rfl hinit
  intro rest
  induction rest with
  | nil =>
    intro done t hl hI
    rw [append_nil] at hl
    rw [hl]
    exact hI
  | cons x rest ih =>
    intro done t hl hI
    rw [foldlM_cons]
    exact (hstep done x rest t hl hI).bind fun t' ht' => ih (done ++ [x]) t' (by simp [hl]) ht'

/-- The same with an invariant of the state alone. -/
theorem foldlM_state {f : σ → α → Except ε σ} {I : σ → Prop} (hinit : I s)
    (hstep : ∀ t, I t → ∀ x ∈ l, Ensures (f t x) I Q) : Ensures (l.foldlM f s) I Q :=
  foldlM (I := fun _ => I) hinit fun _ x _ t hl ht => hstep t ht x (by simp [hl])

end Ensures

/-! ## Loops -/

/-- A loop whose body only checks succeeds exactly when every check does. -/
theorem forM_eq_ok {f : α → Except ε Unit} {u : Unit} :
    forM l f = .ok u ↔ ∀ x ∈ l, f x = .ok () := by
  induction l with
  | nil => simp [pure, Except.pure]
  | cons a l ih =>
    rw [forM_cons, bind_eq_ok, forall_mem_cons]
    constructor
    · rintro ⟨_, ha, hl⟩
      exact ⟨ha, ih.mp hl⟩
    · rintro ⟨ha, hl⟩
      exact ⟨(), ha, ih.mpr hl⟩

/-- A failing checking loop failed at one of its elements. -/
theorem exists_of_forM_eq_error {f : α → Except ε Unit} (h : forM l f = .error e) :
    ∃ x ∈ l, f x = .error e := by
  induction l with
  | nil => cases h
  | cons a l ih =>
    rw [forM_cons, bind_eq_error] at h
    rcases h with ha | ⟨_, _, hl⟩
    · exact ⟨a, mem_cons_self, ha⟩
    · obtain ⟨x, hx, hf⟩ := ih hl
      exact ⟨x, mem_cons_of_mem _ hx, hf⟩

/-- Invariant rule for a loop with an accumulator: `P` relates the elements
processed so far to the accumulator. -/
theorem foldlM_invariant {f : σ → α → Except ε σ} {P : List α → σ → Prop} {s' : σ}
    (h : l.foldlM f s = .ok s') (hinit : P [] s)
    (hstep : ∀ done x rest t t', l = done ++ x :: rest → P done t → f t x = .ok t' →
      P (done ++ [x]) t') : P l s' := by
  refine (Ensures.foldlM (I := P) (Q := fun _ => True) hinit fun done x rest t hl hP => ?_).of_ok h
  cases hx : f t x with
  | ok t' => exact hstep done x rest t t' hl hP hx
  | error e => trivial

/-- A failing loop failed at one element, after a prefix that went through. -/
theorem foldlM_eq_error {f : σ → α → Except ε σ} (h : l.foldlM f s = .error e) :
    ∃ done x rest t, l = done ++ x :: rest ∧ done.foldlM f s = .ok t ∧ f t x = .error e := by
  induction l generalizing s with
  | nil => cases h
  | cons a l ih =>
    rw [foldlM_cons, bind_eq_error] at h
    rcases h with ha | ⟨t, ha, hl⟩
    · exact ⟨[], a, l, s, rfl, rfl, ha⟩
    · obtain ⟨done, x, rest, t', hl', hd, hx⟩ := ih hl
      refine ⟨a :: done, x, rest, t', by rw [hl']; rfl, ?_, hx⟩
      rw [foldlM_cons, bind_eq_ok]
      exact ⟨t, ha, hd⟩

/-- A loop whose body succeeds, from any state with the invariant, exactly on the
elements with `Q` succeeds exactly when all its elements have `Q`. -/
theorem foldlM_ok_iff {f : σ → α → Except ε σ} {Inv : σ → Prop} {Q : α → Prop} {l : List α}
    (hok : ∀ s, Inv s → ∀ x ∈ l, (∃ s', f s x = .ok s') ↔ Q x)
    (hinv : ∀ s, Inv s → ∀ x ∈ l, ∀ s', f s x = .ok s' → Inv s') {s : σ} (hs : Inv s) :
    (∃ s', l.foldlM f s = .ok s' ∧ Inv s') ↔ ∀ x ∈ l, Q x := by
  induction l generalizing s with
  | nil => simpa [pure, Except.pure] using hs
  | cons a l ih =>
    have ih := fun {t : σ} => @ih (fun s hs x hx => hok s hs x (mem_cons_of_mem _ hx))
      (fun s hs x hx => hinv s hs x (mem_cons_of_mem _ hx)) t
    simp only [foldlM_cons, bind_eq_ok, forall_mem_cons]
    constructor
    · rintro ⟨s', ⟨t, ha, hl⟩, hs'⟩
      have ht := hinv s hs a mem_cons_self t ha
      exact ⟨(hok s hs a mem_cons_self).mp ⟨t, ha⟩, (ih ht).mp ⟨s', hl, hs'⟩⟩
    · rintro ⟨hQ, hall⟩
      obtain ⟨t, ha⟩ := (hok s hs a mem_cons_self).mpr hQ
      obtain ⟨s', hl, hs'⟩ := (ih (hinv s hs a mem_cons_self t ha)).mpr hall
      exact ⟨s', ⟨t, ha, hl⟩, hs'⟩

/-- A loop that checks each element and then updates: it succeeds exactly when
every check does, with the plain fold of the updates. -/
theorem foldlM_check_eq_ok {check : α → Except ε Unit} {update : σ → α → σ} {s' : σ} :
    l.foldlM (fun t x => do check x; return update t x) s = .ok s' ↔
      (∀ x ∈ l, check x = .ok ()) ∧ s' = l.foldl update s := by
  induction l generalizing s with
  | nil =>
    simp only [foldlM_nil, foldl_nil, not_mem_nil, false_implies, implies_true,
      true_and]
    exact ⟨fun h => (Except.ok.inj h).symm, fun h => h ▸ rfl⟩
  | cons a l ih =>
    rw [foldlM_cons, foldl_cons, forall_mem_cons]
    cases ha : check a with
    | error e => exact ⟨fun h => (nomatch h), fun h => (nomatch h.1.1)⟩
    | ok u =>
      refine Iff.trans (ih (s := update s a)) ?_
      simp

/-- A loop that appends what its body produces for each element. -/
def collectM (f : α → Except ε (List β)) (l : List α) : Except ε (List β) :=
  l.foldlM (fun collected x => do
    let new ← f x
    return collected ++ new) []

theorem collectM_eq_ok {f : α → Except ε (List β)} {r : List β} :
    collectM f l = .ok r ↔
      (∀ x ∈ l, ∃ y, f x = .ok y) ∧
      r = l.flatMap fun x => match f x with | .ok y => y | .error _ => [] := by
  suffices H : ∀ s, l.foldlM (fun collected x => do
      let new ← f x
      return collected ++ new) s = .ok r ↔
      (∀ x ∈ l, ∃ y, f x = .ok y) ∧
      r = s ++ l.flatMap fun x => match f x with | .ok y => y | .error _ => [] from H []
  induction l with
  | nil =>
    intro s
    simp [pure, Except.pure, eq_comm]
  | cons a l ih =>
    intro s
    rw [foldlM_cons, forall_mem_cons, flatMap_cons]
    cases ha : f a with
    | error e => exact ⟨fun h => (nomatch h), fun h => (nomatch h.1.1)⟩
    | ok y =>
      refine Iff.trans (ih (s ++ y)) ?_
      simp

/-- A `mapM` whose body can only return `g x` is the plain map where it succeeds. -/
theorem eq_map_of_mapM_eq_ok {g : α → β} (hf : ∀ x y, f x = .ok y → y = g x) {r : List β}
    (h : l.mapM f = .ok r) :
    r = l.map g ∧ ∀ x ∈ l, f x = .ok (g x) := by
  induction l generalizing r with
  | nil =>
    cases h
    exact ⟨rfl, by simp⟩
  | cons a l ih =>
    rw [mapM_cons, bind_eq_ok] at h
    obtain ⟨y, hy, h⟩ := h
    rw [bind_eq_ok] at h
    obtain ⟨ys, hys, h⟩ := h
    cases h
    obtain ⟨rfl, hall⟩ := ih hys
    obtain rfl := hf a y hy
    exact ⟨rfl, forall_mem_cons.mpr ⟨hy, hall⟩⟩

/-! ## What a failure can be -/

/-- Every failure of the computation satisfies `P`. -/
def ErrorsSatisfy (P : ε → Prop) (x : Except ε α) : Prop := ∀ e, x = .error e → P e

namespace ErrorsSatisfy

variable {P : ε → Prop}

theorem ok (a : α) : ErrorsSatisfy P (.ok a) := by
  intro e h
  cases h

theorem reject [Decidable c] (he : c → P e) :
    ErrorsSatisfy P (reject c e) := by
  intro d hd
  obtain ⟨hc, rfl⟩ := reject_eq_error.mp hd
  exact he hc

theorem orReject {x : Option α} (he : x = none → P e) :
    ErrorsSatisfy P (orReject x e) := by
  intro d hd
  obtain ⟨hx, rfl⟩ := orReject_eq_error.mp hd
  exact he hx

theorem bind (hx : ErrorsSatisfy P x) (hf : ∀ a, x = .ok a → ErrorsSatisfy P (f a)) :
    ErrorsSatisfy P (x >>= f) := by
  intro e he
  rcases bind_eq_error.mp he with h | ⟨a, ha, h⟩
  · exact hx e h
  · exact hf a ha e h

theorem map {f : α → β} (hx : ErrorsSatisfy P x) :
    ErrorsSatisfy P (x.map f) := by
  intro e he
  cases x with
  | ok a => cases he
  | error d =>
    cases he
    exact hx e rfl

theorem ite [Decidable c] {y : Except ε α} (hx : ErrorsSatisfy P x) (hy : ErrorsSatisfy P y) :
    ErrorsSatisfy P (if c then x else y) := by
  split
  · exact hx
  · exact hy

theorem check [Decidable c] {f : Unit → Except ε β} (he : P e)
    (hf : ErrorsSatisfy P (f ())) : ErrorsSatisfy P (RtRuntime.reject c e >>= f) :=
  .bind (.reject fun _ => he) fun _ _ => hf

theorem get {x : Option α} (he : P e) (hf : ∀ a, ErrorsSatisfy P (f a)) :
    ErrorsSatisfy P (RtRuntime.orReject x e >>= f) :=
  .bind (.orReject fun _ => he) fun a _ => hf a

theorem forM {f : α → Except ε Unit} (hf : ∀ x ∈ l, ErrorsSatisfy P (f x)) :
    ErrorsSatisfy P (forM l f) := by
  intro e he
  obtain ⟨x, hx, h⟩ := exists_of_forM_eq_error he
  exact hf x hx e h

theorem foldlM {f : σ → α → Except ε σ} (hf : ∀ t, ∀ x ∈ l, ErrorsSatisfy P (f t x)) :
    ErrorsSatisfy P (l.foldlM f s) := by
  intro e he
  obtain ⟨done, x, rest, t, rfl, -, h⟩ := foldlM_eq_error he
  exact hf t x (by simp) e h

theorem mapM (hf : ∀ x ∈ l, ErrorsSatisfy P (f x)) :
    ErrorsSatisfy P (l.mapM f) := by
  induction l with
  | nil => exact .ok _
  | cons a l ih =>
    obtain ⟨ha, hl⟩ := forall_mem_cons.mp hf
    rw [mapM_cons]
    exact .bind ha fun _ _ => .bind (ih hl) fun _ _ => .ok _

end ErrorsSatisfy

end RtRuntime

