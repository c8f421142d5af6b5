import BootStore.Proofs.Opening

/-!
# Durability

A commit that succeeds is what the next reader finds, whether or not it checks header blocks, and
the copy that was current before stays on the device to fall back on.
-/
namespace BootStore

variable {l : Layout} {v : Bool} {s : Session}

theorem fits_of_slice_eq (hl : l.Placed) {c c' : Bytes} {t : Slot}
    (hfits : l.offset t + l.copySize ≤ c.length)
    (h : Bytes.slice c' (l.offset t) l.copySize = Bytes.slice c (l.offset t) l.copySize) :
    l.offset t + l.copySize ≤ c'.length := by
  have hlen := congrArg List.length h
  have hsector := hl.sectorSize_le
  have hsize := l.copySize_eq
  rw [Bytes.length_slice, Bytes.length_slice] at hlen
  simp only [blockSize, sectorSize] at *
  omega

theorem Stored.finds_of_rejected (hl : l.Placed) {c : Bytes} {t : Slot} {h : Header}
    (hs : Stored l v c t h) {e : Memory}
    (hsame : Bytes.slice e.contents (l.offset t) l.copySize = Bytes.slice c (l.offset t) l.copySize)
    (hother : ((e.survey l v).sighting t.other).header? = none) :
    e.Finds l v t h (Bytes.slice c (l.offset t) l.copySize) := by
  have hstored : Stored l v e.contents t h := by
    refine ⟨fits_of_slice_eq hl hs.fits hsame, ?_⟩
    rw [hsame]
    exact hs.valid
  rw [← hsame]
  apply e.finds_of_stored hstored
  intro g hg
  rw [(e.survey_header?_eq_some_iff l v t.other g).2 hg] at hother
  cases hother

/-- Durability. Whatever was on the device, however the store was opened and whatever failed since:
after a commit that succeeds a fresh reader finds the session's header and variables, with either
setting for header blocks. The copy that was current before is still there, is accepted, and is
found wherever the new one is rejected. -/
theorem commit_durable {settings : Settings} (hl : settings.layout = .ok l) {flags : OpenFlags}
    {d₀ : Memory} {s₀ : Session}
    (hopen : ((Session.openOn settings flags : StateM Memory _) d₀).1 = .ok s₀) {d : Memory}
    (hr : Reached (fun _ => True) s₀ ((Session.openOn settings flags : StateM Memory _) d₀).2 s d)
    (hok : ((s.commit : StateM Memory _) d).1.1 = .ok ()) :
    let after := ((s.commit : StateM Memory _) d).1.2
    let d' := ((s.commit : StateM Memory _) d).2
    let old := Bytes.slice d.contents (l.offset s.current) l.copySize
    (after.current = s.current.other ∧ after.header.serial = s.header.serial + 1 ∧
      after.header.flags = s.header.flags ∧ after.header.failedBoots = s.header.failedBoots ∧
      after.vars = s.vars) ∧
    (∀ v, ∃ fresh, ((Session.openOn { settings with verifyHeader := v } { readOnly := true } :
        StateM Memory _) (d'.withPlan {})).1 = .ok fresh ∧ fresh.isDegraded = false ∧
      fresh.current = after.current ∧ fresh.header = after.header ∧ fresh.vars = after.vars) ∧
    Bytes.slice d'.contents (l.offset s.current) l.copySize = old ∧
    ((d'.survey l settings.verifyHeader).sighting s.current).header? = some s.header ∧
    ∀ e : Memory, Bytes.slice e.contents (l.offset s.current) l.copySize = old →
      ((e.survey l settings.verifyHeader).sighting after.current).header? = none →
      e.Finds l settings.verifyHeader s.current s.header old := by
  have hplaced := Settings.placed hl
  have hs := hr.grounded hplaced (Session.openOn_grounded hl hopen)
  obtain ⟨u, htarget, hready, hafter, hd, hwritten⟩ := hs.commit_ok hplaced hok
  obtain ⟨hkept, hslice⟩ := hs.stored_writeAll hplaced htarget hready s.rivalOutranks
  rw [hafter, hd]
  refine ⟨⟨htarget, Session.serial_of_ready hready, ?_, ?_, rfl⟩, ?_, hslice, ?_, ?_⟩
  · rw [Session.committed_header, hready.header]
    rfl
  · rw [Session.committed_header, hready.header]
    rfl
  · intro v
    obtain ⟨hstored, himage⟩ := Update.stored_of_writeAll_ok hplaced hready hwritten v
    have hfinds := Memory.finds_of_stored _ hstored (by
      intro g hg
      rw [htarget, Slot.other_other] at hg
      rw [hg.unique hkept]
      exact Session.target_wins_of_ready htarget hready)
    rw [himage] at hfinds
    have hreader : ({ settings with verifyHeader := v } : Settings).layout = .ok l := hl
    exact Session.openOn_of_finds hreader hfinds (hready.reads hs.storable)
  · exact (Memory.survey_header?_eq_some_iff _ l settings.verifyHeader s.current s.header).2 hkept
  · intro e hsame hrejected
    apply hs.stored.finds_of_rejected hplaced hsame
    rw [← htarget]
    exact hrejected

/-- On a blank device, after a commit whose extension was torn: a variable is set, and the next
commit succeeds. -/
theorem commit_durable_retried :
    let settings : Settings := { sectors := 1 }
    let d₀ : Memory := { plan := { writeTears := fun n => if n = 6 then some 100 else none } }
    ∃ s₀ s d, ((Session.openOn settings {} : StateM Memory _) d₀).1 = .ok s₀ ∧
      Reached (fun _ => True) s₀ ((Session.openOn settings {} : StateM Memory _) d₀).2 s d ∧
      s.vars = .of [⟨"v", "new"⟩] ∧ ((s.commit : StateM Memory _) d).1.1 = .ok () ∧
      ∃ fresh, ((Session.openOn { settings with verifyHeader := true } { readOnly := true } :
          StateM Memory _) (((s.commit : StateM Memory _) d).2.withPlan {})).1 = .ok fresh ∧
        fresh.vars = s.vars := by
  intro settings d₀
  have hl : settings.layout = .ok ⟨1, 0, 1024⟩ := eq_ok_of_toOption (by decide +kernel)
  let d₁ := ((Session.openOn settings {} : StateM Memory _) d₀).2
  have hrun : (((Session.openOn settings {} : StateM Memory _) d₀).1.toOption.any fun s₀ =>
      let torn := (Operation.commit.run s₀ : StateM Memory _) d₁
      let edited := ((Operation.set "v" (some "new")).run torn.1.2 : StateM Memory _) torn.2
      torn.1.1.toOption.isNone && edited.1.2.vars == .of [⟨"v", "new"⟩] &&
        ((edited.1.2.commit : StateM Memory _) edited.2).1.1.toOption == some ()) = true := by
    decide +kernel
  obtain ⟨s₀, hopen, hchecks⟩ := (Option.any_eq_true _ _).1 hrun
  simp only [Bool.and_eq_true, beq_iff_eq] at hchecks
  obtain ⟨⟨-, hvars⟩, hcommit⟩ := hchecks
  have hopen := eq_ok_of_toOption hopen
  have hok := eq_ok_of_toOption hcommit
  have hstart : Reached (fun _ => True) s₀ d₁ s₀ d₁ := .start
  have hr := (hstart.call .commit fun _ _ => trivial).call (.set "v" (some "new")) fun _ _ => trivial
  obtain ⟨⟨-, -, -, -, hkept⟩, hreader, -⟩ := commit_durable hl hopen hr hok
  obtain ⟨fresh, hfresh, -, -, -, hsame⟩ := hreader true
  exact ⟨s₀, _, _, hopen, hr, hvars, hok, fresh, hfresh, hsame.trans hkept⟩

end BootStore
