import BootStore.Session.Commit

/-!
# Ranking

The choice between two copies, seen from one of them: a copy is current if it was accepted and does
not lose to its sibling (`Survey.current?_eq_some_iff`). A serial loses to its successor, and of
two serials exactly one loses.
-/
namespace BootStore

namespace Slot

/-- Whether the copy in `s`, with serial `mine`, is passed over for its sibling with `theirs`. -/
def losesTo (s : Slot) (mine theirs : UInt8) : Bool :=
  match s with
  | a => newer (some mine) (some theirs) == some b
  | b => newer (some theirs) (some mine) == some a

/-- A copy loses to its sibling if a survey that accepts both finds the sibling. -/
theorem losesTo_iff (s : Slot) (mine theirs : UInt8) :
    let serial (x : Slot) := if x = s.other then theirs else mine
    s.losesTo mine theirs = true ↔ newer (some (serial .a)) (some (serial .b)) = some s.other := by
  cases s <;> simp [losesTo, other]

theorem newer_some_some (m n : UInt8) :
    newer (some m) (some n) = some a ∨ newer (some m) (some n) = some b := by
  simp only [newer]
  split
  · exact Or.inr rfl
  · split
    · exact Or.inl rfl
    · split
      · exact Or.inr rfl
      · exact Or.inl rfl

theorem losesTo_other (s : Slot) (m n : UInt8) : s.other.losesTo n m = !s.losesTo m n := by
  cases s with
  | a => rcases newer_some_some m n with h | h <;> simp [losesTo, other, h]
  | b => rcases newer_some_some n m with h | h <;> simp [losesTo, other, h]

theorem losesTo_succ (s : Slot) (n : UInt8) : s.losesTo n (n + 1) = true := by
  by_cases hn : n = 255
  · subst hn
    cases s <;> decide
  · have hlt : n < n + 1 := by
      have hne : n.toNat ≠ 255 := fun h => hn (UInt8.toNat_inj.1 h)
      have := n.toNat_lt
      rw [UInt8.lt_iff_toNat_lt, UInt8.toNat_add]
      simp
      omega
    have hnot : ¬ n + 1 < n := UInt8.not_lt.2 (UInt8.le_of_lt hlt)
    have hwrap : ¬ (n + 1 = 255 ∧ n = 0) := by
      rintro ⟨h, rfl⟩
      exact absurd h (by decide)
    cases s with
    | a => simp [losesTo, newer, hn, hlt, hwrap]
    | b => simp [losesTo, newer, hn, hnot, hwrap]

theorem losesTo_pred (s : Slot) (n : UInt8) : s.losesTo (n + 1) n = false := by
  have hother := s.other.losesTo_other n (n + 1)
  rw [other_other, losesTo_succ] at hother
  exact hother

end Slot

theorem Survey.current?_eq_some_iff (survey : Survey) (s : Slot) :
    survey.current? = some s ↔ ∃ h, (survey.sighting s).header? = some h ∧
      ∀ g, (survey.sighting s.other).header? = some g →
        s.losesTo h.serial g.serial = false := by
  cases s with
  | a =>
    simp only [Survey.current?, Survey.sighting, Slot.other, Slot.losesTo]
    cases ha : survey.a.header? with
    | none => cases hb : survey.b.header? <;> simp [Slot.newer]
    | some h =>
      cases hb : survey.b.header? with
      | none => simp [Slot.newer]
      | some g => rcases Slot.newer_some_some h.serial g.serial with hn | hn <;> simp [hn]
  | b =>
    simp only [Survey.current?, Survey.sighting, Slot.other, Slot.losesTo]
    cases hb : survey.b.header? with
    | none => cases ha : survey.a.header? <;> simp [Slot.newer]
    | some h =>
      cases ha : survey.a.header? with
      | none => simp [Slot.newer]
      | some g => rcases Slot.newer_some_some g.serial h.serial with hn | hn <;> simp [hn]

theorem Session.rivalOutranks_iff (s : Session) :
    s.rivalOutranks = true ↔
      ∃ g, s.rival = some g ∧ s.current.losesTo s.header.serial g.serial = true := by
  unfold Session.rivalOutranks Slot.losesTo
  cases s.rival with
  | none => simp
  | some g => cases s.current <;> simp

end BootStore
