import BootStore.Proofs.CrashIsolation

/-!
# Blanking

What blanking both copies leaves when one of its writes fails: the bytes of a slot as they stood, or
no header there. The device may have grown meanwhile.
-/
namespace BootStore

variable {l : Layout} {v : Bool}

theorem Layout.Headless.leave {c : Bytes} {t : Slot} (hnone : l.Headless c t) {w : Write}
    (hbeside : w.offset + w.data.length ≤ l.offset t ∨ l.offset t + blockSize ≤ w.offset)
    (o : WriteOutcome) : l.Headless (o.leave c w) t := by
  rw [Layout.Headless, Layout.blockOn, o.window_leave_of_disjoint c w hbeside]
  exact hnone

/-- Writes that clear the slot's header block on their way: what the writes before that keep still
holds, or no header stands there any more. -/
theorem Memory.headless_or {P : Bytes → Prop} {t : Slot} {before after : List Write}
    (hne : ∀ w ∈ before ++ after, w.data ≠ [])
    (hbefore : ∀ w ∈ before, ∀ c o, P c → P (WriteOutcome.leave o c w))
    (hafter : ∀ w ∈ after,
      w.offset + w.data.length ≤ l.offset t ∨ l.offset t + blockSize ≤ w.offset)
    {d : Memory} (h : P d.contents) :
    let c := ((BlockDevice.writeAll (before ++ ⟨l.offset t, Bytes.zeros blockSize⟩ :: after) :
      StateM Memory _) d).2.contents
    P c ∨ l.Headless c t := by
  have hfirst : P ((BlockDevice.writeAll before : StateM Memory _) d).2.contents :=
    Memory.writeAll_induction (fun w hw => hne w (List.mem_append_left _ hw)) hbefore h
  dsimp only
  rw [Memory.writeAll_append]
  generalize (BlockDevice.writeAll before : StateM Memory _) d = out at hfirst
  obtain ⟨result, e⟩ := out
  cases result with
  | error err => exact Or.inl hfirst
  | ok =>
    dsimp only at hfirst ⊢
    rw [Memory.writeAll_cons]
    obtain ⟨o, hc, -, ⟨hok, rfl⟩ | ⟨err, herr, -⟩⟩ :=
      e.write_cases (w := ⟨l.offset t, Bytes.zeros blockSize⟩) (List.cons_ne_nil _ _)
    · right
      rw [hok]
      refine Memory.writeAll_induction (P := fun c => l.Headless c t)
        (fun w hw => hne w (List.mem_append_right _ hw))
        (fun w hw c o hc => hc.leave (hafter w hw) o) ?_
      rw [hc]
      apply Layout.headless_of_zeros
      have hself := Bytes.window_overwrite_self e.contents (l.offset t) (Bytes.zeros blockSize)
      rw [Bytes.length_zeros] at hself
      exact hself
    · rw [herr]
      dsimp only
      rw [hc]
      rcases l.headless_leave_zeros t e.contents o with hsame | hnone
      · left
        rw [hsame]
        exact hfirst
      · exact Or.inr hnone

namespace Session

theorem headless_blanking (hl : l.Placed) (d : Memory) :
    let after := ((BlockDevice.writeAll (blanking l) : StateM Memory _) d).2.contents
    after = d.contents ∨ l.Headless after .a := by
  let rest : List Write := [⟨l.extensionOffset .a, Bytes.zeros l.extensionSize⟩,
    ⟨l.offset .b, Bytes.zeros blockSize⟩, ⟨l.extensionOffset .b, Bytes.zeros l.extensionSize⟩]
  have hrest : ∀ w ∈ rest,
      w.offset + w.data.length ≤ l.offset .a ∨ l.offset .a + blockSize ≤ w.offset := by
    intro w hw
    have hsize := l.copySize_eq
    have hapart := hl.apart .a
    simp only [rest, List.mem_cons, List.not_mem_nil, or_false] at hw
    simp only [Slot.other] at hapart
    rcases hw with rfl | rfl | rfl
    · exact Or.inr (Nat.le_refl _)
    · simp only [Bytes.length_zeros]
      omega
    · simp only [Bytes.length_zeros, Layout.extensionOffset]
      omega
  have hblanking : blanking l = [] ++ ⟨l.offset .a, Bytes.zeros blockSize⟩ :: rest := rfl
  have hne : ∀ w ∈ [] ++ rest, w.data ≠ [] := by
    intro w hw
    apply data_ne_nil_of_mem_blanking hl
    rw [hblanking]
    exact List.mem_cons_of_mem _ hw
  rw [hblanking]
  exact Memory.headless_or (P := fun c => c = d.contents) hne
    (fun w hw => absurd hw List.not_mem_nil) hrest rfl

/-- Blanking, and writing copy A after that, leaves copy B's bytes as they were, perhaps with zeros
behind the old end of the device, or it has taken away the header of copy B. -/
theorem window_or_headless_blanking (hl : l.Placed) (more : List Write)
    (hmore : ∀ w ∈ more, w.data ≠ [] ∧ w.Within (l.offset .a) l.copySize) (d : Memory) :
    let after := ((BlockDevice.writeAll (blanking l ++ more) : StateM Memory _) d).2.contents
    (after.length ≤ max d.contents.length (l.offset .a + l.copySize) ∧
      Bytes.window after (l.offset .b) l.copySize =
        Bytes.window d.contents (l.offset .b) l.copySize) ∨
    l.Headless after .b := by
  have hapart := hl.apart .a
  simp only [Slot.other] at hapart
  let first : List Write := [⟨l.offset .a, Bytes.zeros blockSize⟩,
    ⟨l.extensionOffset .a, Bytes.zeros l.extensionSize⟩]
  let last : List Write := ⟨l.extensionOffset .b, Bytes.zeros l.extensionSize⟩ :: more
  have hfirst : ∀ w ∈ first, w.Within (l.offset .a) l.copySize := by
    intro w hw
    simp only [first, List.mem_cons, List.not_mem_nil, or_false] at hw
    rcases hw with rfl | rfl
    · refine ⟨Nat.le_refl _, ?_⟩
      simp only [Bytes.length_zeros, Layout.copySize_eq]
      omega
    · refine ⟨Nat.le_add_right _ _, ?_⟩
      simp only [Bytes.length_zeros, Layout.copySize_eq, Layout.extensionOffset]
      omega
  have hblanking : blanking l ++ more =
      first ++ ⟨l.offset .b, Bytes.zeros blockSize⟩ :: last := rfl
  rw [hblanking]
  refine Memory.headless_or
    (P := fun c => c.length ≤ max d.contents.length (l.offset .a + l.copySize) ∧
      Bytes.window c (l.offset .b) l.copySize =
        Bytes.window d.contents (l.offset .b) l.copySize) ?_ ?_ ?_ ⟨Nat.le_max_left _ _, rfl⟩
  · intro w hw
    have hmem : w ∈ blanking l ++ more := by
      rw [hblanking]
      rcases List.mem_append.1 hw with hw | hw
      · exact List.mem_append_left _ hw
      · exact List.mem_append_right _ (List.mem_cons_of_mem _ hw)
    rcases List.mem_append.1 hmem with hmem | hmem
    · exact data_ne_nil_of_mem_blanking hl hmem
    · exact (hmore w hmem).1
  · rintro w hw c o ⟨hlen, hwindow⟩
    obtain ⟨hstart, hends⟩ := hfirst w hw
    have hgrows := o.length_leave_le c w
    refine ⟨by omega, ?_⟩
    rw [o.window_leave_of_disjoint c w (by omega), hwindow]
  · intro w hw
    have hsize := l.copySize_eq
    rcases List.mem_cons.1 hw with rfl | hw
    · exact Or.inr (Nat.le_refl _)
    · obtain ⟨-, hstart, hends⟩ := hmore w hw
      omega

theorem window_or_headless_establish (hl : l.Placed) (vs : Variables) (d : Memory) :
    let after := ((establish l vs : StateM Memory _) d).2.contents
    (after.length ≤ max d.contents.length (l.offset .a + l.copySize) ∧
      Bytes.window after (l.offset .b) l.copySize =
        Bytes.window d.contents (l.offset .b) l.copySize) ∨
    l.Headless after .b := by
  dsimp only
  rw [establish_device, establishing]
  cases hu : firstUpdate l vs with
  | error e =>
    have hblank := window_or_headless_blanking hl [] (fun w hw => absurd hw List.not_mem_nil) d
    rw [List.append_nil] at hblank
    dsimp only
    exact hblank
  | ok u =>
    obtain ⟨htarget, hready⟩ := firstUpdate_ready hl hu
    dsimp only
    refine window_or_headless_blanking hl (u.parts l) ?_ d
    intro w hw
    rw [← htarget]
    exact Update.within_of_mem_writes hl hready (show w ∈ u.writes l false from hw)

end Session

end BootStore
