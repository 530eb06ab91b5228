import RtRuntime.ListChanges
import Mathlib.Logic.Function.Basic

/-!
# Ledgers

Entries are written into slots under numbers that are given out once.  A slot whose entry has its
number and is not accepted yet pends; once the entry is accepted the slot holds it, until the slot is
freed.  Somebody has to hear of the accepted entries, of each once: while the slot still holds the
entry, or afterwards from the party that has freed the slot and owes the news until then.

The steps of a ledger keep it sound.  A system with such slots keeps sound books when each of its
steps agrees with a step of its ledger.
-/

namespace RtRuntime

open Function List

variable {κ β γ π : Type*}

/-- The books of a set of slots.  A piece of news is the number of an entry with a message. -/
structure Ledger (κ β γ π : Type*) where
  /-- What is written in a slot. -/
  entry : κ → β
  /-- The entry has its number and is not accepted yet. -/
  pends : κ → Prop
  /-- The entry is accepted. -/
  holds : κ → Prop
  /-- The entry is accepted and has been told of. -/
  told : κ → Prop
  /-- The news that a party has still to tell. -/
  owes : π → Option (ℕ × γ)
  /-- Every number that was given is below. -/
  next : ℕ
  accepted : List β
  freed : List ℕ
  heard : List (ℕ × γ)

namespace Ledger

def Numbered (l : Ledger κ β γ π) (k : κ) : Prop :=
  l.holds k ∨ l.pends k

/-- The news of an entry that has to be told of. -/
def News (label : β → ℕ × γ) (Reported : β → Prop) (l : Ledger κ β γ π) (e : ℕ × γ) : Prop :=
  ∃ b ∈ l.accepted, Reported b ∧ label b = e

/-- Numbers are given once; an accepted entry is in one slot or was freed once; and what has to be
told of is told of once. -/
structure Sound (label : β → ℕ × γ) (Reported : β → Prop) (l : Ledger κ β γ π) : Prop where
  below : ∀ k, l.Numbered k → (label (l.entry k)).1 < l.next
  distinct : ∀ j k, l.Numbered j → l.Numbered k →
    (label (l.entry j)).1 = (label (l.entry k)).1 → j = k
  listed : ∀ k, l.holds k → l.entry k ∈ l.accepted
  bound : ∀ b ∈ l.accepted, (label b).1 < l.next
  fresh : ∀ k, l.pends k → ∀ b ∈ l.accepted, (label b).1 ≠ (label (l.entry k)).1
  once : (l.accepted.map fun b => (label b).1).Nodup
  freedOnce : l.freed.Nodup
  freedListed : ∀ n ∈ l.freed, ∃ b ∈ l.accepted, (label b).1 = n
  holding : ∀ k, l.holds k → (label (l.entry k)).1 ∉ l.freed
  kept : ∀ b ∈ l.accepted, (label b).1 ∈ l.freed ∨ ∃ k, l.holds k ∧ l.entry k = b
  told : ∀ k, l.holds k → l.told k → (label (l.entry k)).1 ∈ l.heard.map Prod.fst
  untold : ∀ k, l.holds k → ¬l.told k → (label (l.entry k)).1 ∉ l.heard.map Prod.fst
  owes : ∀ x e, l.owes x = some e →
    e.1 ∈ l.freed ∧ e.1 ∉ l.heard.map Prod.fst ∧ l.News label Reported e
  owesOnce : ∀ x y d e, l.owes x = some d → l.owes y = some e → d.1 = e.1 → x = y
  heardOnce : (l.heard.map Prod.fst).Nodup
  heardNews : ∀ e ∈ l.heard, l.News label Reported e
  delivered : ∀ b ∈ l.accepted, Reported b → (label b).1 ∈ l.freed →
    (label b).1 ∈ l.heard.map Prod.fst ∨ ∃ x e, l.owes x = some e ∧ e.1 = (label b).1

/-- The second ledger says the same as the first, and perhaps less of what pends. -/
structure Agrees (l l' : Ledger κ β γ π) : Prop where
  entry : ∀ k, l'.Numbered k → l'.entry k = l.entry k
  pends : ∀ k, l'.pends k → l.pends k
  holds : ∀ k, l'.holds k ↔ l.holds k
  told : ∀ k, l'.holds k → (l'.told k ↔ l.told k)
  owes : ∀ x, l'.owes x = l.owes x
  next : l'.next = l.next := by rfl
  accepted : l'.accepted = l.accepted := by rfl
  freed : l'.freed = l.freed := by rfl
  heard : l'.heard = l.heard := by rfl

variable {label : β → ℕ × γ} {Reported : β → Prop} {l l' : Ledger κ β γ π}

/-- A ledger in which nothing has happened. -/
theorem Sound.empty (pends : ∀ k, ¬l.pends k) (holds : ∀ k, ¬l.holds k)
    (owes : ∀ x, l.owes x = none) (accepted : l.accepted = []) (freed : l.freed = [])
    (heard : l.heard = []) : l.Sound label Reported := by
  have unnumbered (k : κ) : ¬l.Numbered k := not_or.mpr ⟨holds k, pends k⟩
  constructor <;> simp [unnumbered, pends, holds, owes, accepted, freed, heard]

section

variable (h : l.Sound label Reported)
include h

theorem Sound.agrees (same : l.Agrees l') : l'.Sound label Reported := by
  obtain ⟨entry, pends, holds, told, owes, next, accepted, freed, heard⟩ := same
  obtain ⟨entry', pends', holds', told', owes', next', accepted', freed', heard'⟩ := l'
  simp only at *
  obtain rfl : holds' = l.holds := funext fun k => propext (holds k)
  obtain rfl : owes' = l.owes := funext owes
  subst next accepted freed heard
  have numbered (k : κ) : l.holds k ∨ pends' k → l.Numbered k := Or.imp_right (pends k)
  refine { h with
    below := fun k n => ?_, distinct := fun j k n n' same => ?_, listed := fun k held => ?_
    fresh := fun k pending => ?_, holding := fun k held => ?_, kept := fun b member => ?_
    told := fun k held heard => ?_, untold := fun k held unheard => ?_ }
  all_goals dsimp only at *
  · rw [entry k n]
    exact h.below k (numbered k n)
  · rw [entry j n, entry k n'] at same
    exact h.distinct j k (numbered j n) (numbered k n') same
  · rw [entry k (.inl held)]
    exact h.listed k held
  · rw [entry k (.inr pending)]
    exact h.fresh k (pends k pending)
  · rw [entry k (.inl held)]
    exact h.holding k held
  · refine (h.kept b member).imp_right fun ⟨k, held, same⟩ => ⟨k, held, ?_⟩
    exact (entry k (.inl held)).trans same
  · rw [entry k (.inl held)]
    exact h.told k held ((told k held).mp heard)
  · rw [entry k (.inl held)]
    exact h.untold k held fun heard => unheard ((told k held).mpr heard)

/-- A pending entry is new to every list. -/
theorem Sound.pends_new {k : κ} (pending : l.pends k) :
    (label (l.entry k)).1 ∉ l.freed ∧ (label (l.entry k)).1 ∉ l.heard.map Prod.fst := by
  constructor
  · intro gone
    obtain ⟨b, member, same⟩ := h.freedListed _ gone
    exact h.fresh k pending b member same
  · intro heard
    obtain ⟨e, news, same⟩ := mem_map.mp heard
    obtain ⟨b, member, -, rfl⟩ := h.heardNews e news
    exact h.fresh k pending b member same

end

/-- An entry with a new number is written into a slot. -/
def fill [DecidableEq κ] (label : β → ℕ × γ) (l : Ledger κ β γ π) (k : κ) (b : β) :
    Ledger κ β γ π :=
  { l with
    entry := update l.entry k b
    pends := fun j => j = k ∨ l.pends j
    next := (label b).1 + 1 }

/-- The entry of a pending slot is accepted. -/
def accept (l : Ledger κ β γ π) (k : κ) : Ledger κ β γ π :=
  { l with
    pends := fun j => l.pends j ∧ j ≠ k
    holds := fun j => l.holds j ∨ j = k
    accepted := l.accepted ++ [l.entry k] }

/-- A party frees a slot and may owe the news from then on. -/
def free [DecidableEq π] (label : β → ℕ × γ) (l : Ledger κ β γ π) (x : π) (k : κ)
    (debt : Option (ℕ × γ)) : Ledger κ β γ π :=
  { l with
    holds := fun j => l.holds j ∧ j ≠ k
    owes := update l.owes x debt
    freed := l.freed ++ [(label (l.entry k)).1] }

/-- The news of an entry is told while its slot holds it. -/
def tell (label : β → ℕ × γ) (l : Ledger κ β γ π) (k : κ) : Ledger κ β γ π :=
  { l with
    told := fun j => l.told j ∨ j = k
    heard := l.heard ++ [label (l.entry k)] }

/-- A party tells the news that it owes. -/
def pay [DecidableEq π] (l : Ledger κ β γ π) (x : π) (e : ℕ × γ) : Ledger κ β γ π :=
  { l with
    owes := update l.owes x none
    heard := l.heard ++ [e] }

namespace Sound

variable (h : l.Sound label Reported) {k : κ} {x : π}
include h

theorem fill [DecidableEq κ] {b : β} (unnumbered : ¬l.Numbered k)
    (later : l.next ≤ (label b).1) : (l.fill label k b).Sound label Reported := by
  have written : { l with entry := update l.entry k b }.Sound label Reported := by
    refine h.agrees
      { entry := fun j n => update_of_ne ?_ _ _, pends := fun _ => id, holds := fun _ => .rfl
        told := fun _ _ => .rfl, owes := fun _ => rfl }
    rintro rfl
    exact unnumbered n
  have at_k : update l.entry k b k = b := update_self k b l.entry
  have cases (j : κ) (n : (l.fill label k b).Numbered j) : j = k ∨ l.Numbered j := by
    rcases n with held | same | pending
    · exact .inr (.inl held)
    · exact .inl same
    · exact .inr (.inr pending)
  refine { written with
    below := fun j n => ?_, distinct := fun i j n n' same => ?_
    bound := fun c member => ?_, fresh := fun j pending c member => ?_ }
  · change (label (update l.entry k b j)).1 < (label b).1 + 1
    rcases cases j n with rfl | old
    · rw [at_k]
      exact Nat.lt_succ_self _
    · have := written.below j old
      simp only at this
      omega
  · change (label (update l.entry k b i)).1 = (label (update l.entry k b j)).1 at same
    rcases cases i n with rfl | old <;> rcases cases j n' with rfl | old'
    · rfl
    · have below := written.below j old'
      simp only [at_k] at same below
      omega
    · have below := written.below i old
      simp only [at_k] at same below
      omega
    · exact written.distinct i j old old' same
  · have := h.bound c member
    change (label c).1 < (label b).1 + 1
    omega
  · rcases pending with rfl | old
    · have := h.bound c member
      change (label c).1 ≠ (label (update l.entry j b j)).1
      rw [at_k]
      omega
    · exact written.fresh j old c member

theorem accept (pending : l.pends k) (unheard : ¬l.told k) :
    (l.accept k).Sound label Reported := by
  obtain ⟨not_freed, untold⟩ := h.pends_new pending
  have cases (j : κ) (n : (l.accept k).Numbered j) : l.Numbered j := by
    rcases n with (held | rfl) | waits
    · exact .inl held
    · exact .inr pending
    · exact .inr waits.1
  have old {b : β} (member : b ∈ l.accepted) : b ∈ (l.accept k).accepted :=
    mem_append_left _ member
  have members {b : β} (member : b ∈ (l.accept k).accepted) : b ∈ l.accepted ∨ b = l.entry k :=
    (mem_append.mp member).imp_right mem_singleton.mp
  have news {e : ℕ × γ} : l.News label Reported e → (l.accept k).News label Reported e :=
    fun ⟨b, member, rest⟩ => ⟨b, old member, rest⟩
  refine { h with
    below := fun j n => h.below j (cases j n)
    distinct := fun i j n n' => h.distinct i j (cases i n) (cases j n')
    listed := ?_, bound := fun b member => ?_, fresh := fun j ⟨waits, ne⟩ b member => ?_, once := ?_
    freedListed := fun n gone => ?_, holding := ?_, kept := fun b member => ?_, told := ?_
    untold := ?_, owes := fun x e owed => ?_, heardNews := fun e heard => news (h.heardNews e heard)
    delivered := fun b member reported gone => ?_ }
  · rintro j (held | rfl)
    · exact old (h.listed j held)
    · exact mem_concat_self
  · rcases members member with before | rfl
    · exact h.bound b before
    · exact h.below k (.inr pending)
  · rcases members member with before | rfl
    · exact h.fresh j waits b before
    · exact fun same => ne (h.distinct k j (.inr pending) (.inr waits) same).symm
  · rw [Ledger.accept, map_append, map_singleton, ← concat_eq_append]
    refine .concat (fun before => ?_) h.once
    obtain ⟨b, member, same⟩ := mem_map.mp before
    exact h.fresh k pending b member same
  · obtain ⟨b, member, same⟩ := h.freedListed n gone
    exact ⟨b, old member, same⟩
  · rintro j (held | rfl)
    · exact h.holding j held
    · exact not_freed
  · rcases members member with before | rfl
    · exact (h.kept b before).imp_right fun ⟨j, held, same⟩ => ⟨j, .inl held, same⟩
    · exact .inr ⟨k, .inr rfl, rfl⟩
  · rintro j (held | rfl) heard
    · exact h.told j held heard
    · exact absurd heard unheard
  · rintro j (held | rfl) unheard
    · exact h.untold j held unheard
    · exact untold
  · obtain ⟨gone, waiting, known⟩ := h.owes x e owed
    exact ⟨gone, waiting, news known⟩
  · rcases members member with before | rfl
    · exact h.delivered b before reported gone
    · exact absurd gone not_freed

theorem free [DecidableEq π] (debt : Option (ℕ × γ)) (held : l.holds k) (paid : l.owes x = none)
    (settles : debt = none ∧ (l.told k ∨ ¬Reported (l.entry k)) ∨
      debt = some (label (l.entry k)) ∧ ¬l.told k ∧ Reported (l.entry k)) :
    (l.free label x k debt).Sound label Reported := by
  have not_freed := h.holding k held
  have cases (j : κ) : (l.free label x k debt).Numbered j → l.Numbered j := Or.imp_left And.left
  have gone_cases {n : ℕ} : n ∈ (l.free label x k debt).freed ↔
      n ∈ l.freed ∨ n = (label (l.entry k)).1 := by
    rw [Ledger.free, mem_append, mem_singleton]
  have owes_cases {y : π} {e : ℕ × γ} (owed : update l.owes x debt y = some e) :
      l.owes y = some e ∨ y = x ∧ e = label (l.entry k) ∧ ¬l.told k ∧ Reported (l.entry k) := by
    by_cases same : y = x
    · subst same
      rw [update_self] at owed
      rcases settles with ⟨none, -⟩ | ⟨some, rest⟩
      · rw [none] at owed
        cases owed
      · exact .inr ⟨rfl, Option.some.inj (owed.symm.trans some), rest⟩
    · rw [update_of_ne same] at owed
      exact .inl owed
  have owed_ne {y : π} {e : ℕ × γ} (owed : l.owes y = some e) : e.1 ≠ (label (l.entry k)).1 :=
    fun same => not_freed (same ▸ (h.owes y e owed).1)
  refine { h with
    below := fun j n => h.below j (cases j n)
    distinct := fun i j n n' => h.distinct i j (cases i n) (cases j n')
    listed := fun j now => h.listed j now.1, freedOnce := ?_, freedListed := fun n gone => ?_
    holding := fun j ⟨now, ne⟩ gone => ?_, kept := fun b member => ?_
    told := fun j now => h.told j now.1, untold := fun j now => h.untold j now.1
    owes := fun y e owed => ?_, owesOnce := fun y z d e first second same => ?_
    delivered := fun b member reported gone => ?_ }
  · rw [Ledger.free, ← concat_eq_append]
    exact h.freedOnce.concat not_freed
  · rcases gone_cases.mp gone with old | rfl
    · exact h.freedListed n old
    · exact ⟨_, h.listed k held, rfl⟩
  · rcases gone_cases.mp gone with old | same
    · exact h.holding j now old
    · exact ne (h.distinct j k (.inl now) (.inl held) same)
  · rw [gone_cases]
    rcases h.kept b member with gone | ⟨j, now, rfl⟩
    · exact .inl (.inl gone)
    · by_cases same : j = k
      · exact .inl (.inr (by rw [same]))
      · exact .inr ⟨j, ⟨now, same⟩, rfl⟩
  · rw [gone_cases]
    rcases owes_cases owed with old | ⟨-, rfl, untold, reported⟩
    · obtain ⟨gone, rest⟩ := h.owes y e old
      exact ⟨.inl gone, rest⟩
    · exact ⟨.inr rfl, h.untold k held untold, _, h.listed k held, reported, rfl⟩
  · rcases owes_cases first with old | ⟨rfl, rfl, -⟩ <;>
      rcases owes_cases second with old' | ⟨rfl, rfl, -⟩
    · exact h.owesOnce y z d e old old' same
    · exact absurd same (owed_ne old)
    · exact absurd same.symm (owed_ne old')
    · rfl
  · change _ ∨ ∃ y e, update l.owes x debt y = some e ∧ _
    rcases gone_cases.mp gone with old | same
    · refine (h.delivered b member reported old).imp_right fun ⟨y, e, owed, same⟩ => ?_
      refine ⟨y, e, ?_, same⟩
      rw [update_of_ne, owed]
      rintro rfl
      rw [paid] at owed
      cases owed
    · obtain rfl := inj_on_of_nodup_map h.once member (h.listed k held) same
      rcases settles with ⟨-, told | unreported⟩ | ⟨some, -⟩
      · exact .inl (h.told k held told)
      · exact absurd reported unreported
      · exact .inr ⟨x, _, by rw [update_self, some], rfl⟩

theorem tell (held : l.holds k) (untold : ¬l.told k) (reported : Reported (l.entry k)) :
    (l.tell label k).Sound label Reported := by
  have heard_cases {n : ℕ} : n ∈ (l.tell label k).heard.map Prod.fst ↔
      n ∈ l.heard.map Prod.fst ∨ n = (label (l.entry k)).1 := by
    rw [Ledger.tell, map_append, mem_append, map_singleton, mem_singleton]
  refine { h with
    told := ?_, untold := fun j now unheard => ?_, owes := fun y e owed => ?_, heardOnce := ?_
    heardNews := forall_mem_concat.mpr ⟨h.heardNews, _, h.listed k held, reported, rfl⟩
    delivered := fun b member reported' gone => ?_ }
  · rintro j now (heard | rfl)
    · exact heard_cases.mpr (.inl (h.told j now heard))
    · exact heard_cases.mpr (.inr rfl)
  · obtain ⟨unheard, ne⟩ := not_or.mp unheard
    rw [heard_cases]
    exact not_or.mpr ⟨h.untold j now unheard,
      fun same => ne (h.distinct j k (.inl now) (.inl held) same)⟩
  · obtain ⟨gone, waiting, news⟩ := h.owes y e owed
    rw [heard_cases]
    exact ⟨gone, not_or.mpr ⟨waiting, fun same => h.holding k held (same ▸ gone)⟩, news⟩
  · rw [Ledger.tell, map_append, map_singleton, ← concat_eq_append]
    exact h.heardOnce.concat (h.untold k held untold)
  · rw [heard_cases]
    exact (h.delivered b member reported' gone).imp_left .inl

theorem pay [DecidableEq π] {e : ℕ × γ} (owed : l.owes x = some e) :
    (l.pay x e).Sound label Reported := by
  obtain ⟨gone, waiting, news⟩ := h.owes x e owed
  have heard_cases {n : ℕ} : n ∈ (l.pay x e).heard.map Prod.fst ↔
      n ∈ l.heard.map Prod.fst ∨ n = e.1 := by
    rw [Ledger.pay, map_append, mem_append, map_singleton, mem_singleton]
  have old {y : π} {d : ℕ × γ} (still : update l.owes x none y = some d) :
      y ≠ x ∧ l.owes y = some d := by
    by_cases same : y = x
    · subst same
      rw [update_self] at still
      cases still
    · exact ⟨same, update_of_ne same none l.owes ▸ still⟩
  refine { h with
    told := fun j now heard => heard_cases.mpr (.inl (h.told j now heard))
    untold := fun j now unheard => ?_, owes := fun y d still => ?_
    owesOnce := fun y z d d' first second => h.owesOnce y z d d' (old first).2 (old second).2
    heardOnce := ?_, heardNews := forall_mem_concat.mpr ⟨h.heardNews, news⟩
    delivered := fun b member reported gone => ?_ }
  · rw [heard_cases]
    exact not_or.mpr ⟨h.untold j now unheard, fun same => h.holding j now (same ▸ gone)⟩
  · obtain ⟨ne, before⟩ := old still
    obtain ⟨gone', waiting', news'⟩ := h.owes y d before
    rw [heard_cases]
    exact ⟨gone', not_or.mpr ⟨waiting', fun same => ne (h.owesOnce y x d e before owed same)⟩, news'⟩
  · rw [Ledger.pay, map_append, map_singleton, ← concat_eq_append]
    exact h.heardOnce.concat waiting
  · rw [heard_cases]
    rcases h.delivered b member reported gone with done | ⟨y, d, before, same⟩
    · exact .inl (.inl done)
    · by_cases eq : y = x
      · subst eq
        obtain rfl := Option.some.inj (owed.symm.trans before)
        exact .inl (.inr same.symm)
      · exact .inr ⟨y, d, by simp [Ledger.pay, eq, before], same⟩

/-- Where nobody owes news and no slot was told of, an accepted entry that has to be told of was told
of and freed, or it is in a slot and neither. -/
theorem settled (paid : ∀ x, l.owes x = none) (silent : ∀ k, ¬l.told k) {b : β}
    (member : b ∈ l.accepted) (reported : Reported b) :
    (label b ∈ l.heard ∧ (label b).1 ∈ l.freed) ∨ ∃ k, l.holds k ∧ l.entry k = b ∧
      (label b).1 ∉ l.heard.map Prod.fst ∧ (label b).1 ∉ l.freed := by
  rcases h.kept b member with gone | ⟨k, held, rfl⟩
  · refine .inl ⟨?_, gone⟩
    rcases h.delivered b member reported gone with done | ⟨x, e, owed, -⟩
    · obtain ⟨e, heard, same⟩ := mem_map.mp done
      obtain ⟨c, known, -, rfl⟩ := h.heardNews e heard
      obtain rfl := inj_on_of_nodup_map h.once known member same
      exact heard
    · rw [paid] at owed
      cases owed
  · exact .inr ⟨k, held, rfl, h.untold k held (silent k), h.holding k held⟩

end Sound

end Ledger

end RtRuntime
