import BootStore.Settings

/-!
# Placement

What the settings' check gives a layout: extensions that are not empty, and two copies that lie
below the offset bound and share no byte (`Settings.placed`).
-/
namespace BootStore

namespace Layout

structure Placed (l : Layout) : Prop where
  sectors_pos : 0 < l.sectors.toNat
  sectors_le : l.sectors.toNat ≤ maxSectors
  below : ∀ s, l.offset s + l.copySize < offsetLimit
  apart : ∀ s, l.offset s + l.copySize ≤ l.offset s.other ∨
    l.offset s.other + l.copySize ≤ l.offset s

theorem variables_le (l : Layout) : l.variableStart + l.variableSpace ≤ l.copySize := by
  rw [← variableEnd_eq, variableEnd]
  omega

theorem copySize_eq (l : Layout) : l.copySize = blockSize + l.extensionSize := rfl

theorem Placed.sectorSize_le {l : Layout} (hl : l.Placed) : sectorSize ≤ l.extensionSize := by
  have h := Nat.mul_le_mul_right sectorSize hl.sectors_pos
  rw [extensionSize]
  omega

end Layout

theorem Settings.placed {settings : Settings} {l : Layout} (h : settings.layout = .ok l) :
    l.Placed := by
  unfold Settings.layout at h
  split at h
  · cases h
  next hcount =>
  simp only at h
  split at h
  · cases h
  next hrange =>
  split at h
  · cases h
  next hoverlap =>
  cases h
  have hsectors : settings.sectors.toNat ≠ 0 := fun h0 =>
    hcount (Or.inl (UInt16.toNat_inj.1 h0))
  constructor
  · exact Nat.pos_of_ne_zero hsectors
  · exact Nat.le_of_not_lt fun h => hcount (Or.inr h)
  · intro s
    cases s with
    | a => exact Nat.lt_of_not_le fun h => hrange (Or.inl h)
    | b => exact Nat.lt_of_not_le fun h => hrange (Or.inr h)
  · intro s
    cases s with
    | a =>
      simp only [Layout.offset, Slot.other]
      omega
    | b =>
      simp only [Layout.offset, Slot.other]
      omega

end BootStore
