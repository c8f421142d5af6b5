import BootStore.Proofs.Opening

/-!
# Failed commits

A commit that fails may leave its mark on the copy that is not current and on what the session knows
of it. The next one that succeeds fills that copy whole (`failed_commits_invisible`).
-/
namespace BootStore

theorem WriteOutcome.sameBeside_leave (o : WriteOutcome) (c : Bytes) {w : Write}
    {offset length : Nat} (hw : w.Within offset length) :
    Bytes.SameBeside offset length c (o.leave c w) := by
  have hstart := hw.1
  have hends := hw.2
  rcases o.leave_cases c w with h | ⟨n, h⟩
  · rw [h]
    exact .refl c
  · rw [h]
    apply Bytes.SameBeside.overwrite c hstart
    rw [List.length_take]
    omega

variable {l : Layout} {v : Bool} {s : Session} {h : Header} {u : Update} {vs : Variables}

namespace Update

/-- However the writes of an update end, they leave all but the target's region alone. -/
theorem sameBeside_writeAll (hl : l.Placed) (hu : u.Ready l h vs) (clearFirst : Bool)
    (d : Memory) :
    Bytes.SameBeside (l.offset u.target) l.copySize d.contents
      ((BlockDevice.writeAll (u.writes l clearFirst) : StateM Memory _) d).2.contents := by
  refine Memory.writeAll_induction (P := Bytes.SameBeside (l.offset u.target) l.copySize d.contents)
    (fun w hw => (within_of_mem_writes hl hu hw).1) ?_ (.refl d.contents)
  intro w hw c o hc
  exact hc.trans (o.sameBeside_leave c (within_of_mem_writes hl hu hw).2)

theorem written_writes (hl : l.Placed) (hu : u.Ready l h vs) (clearFirst : Bool) (c : Bytes) :
    Memory.written c (u.writes l clearFirst) = Bytes.overwrite c (l.offset u.target) u.image := by
  obtain ⟨hstored, himage⟩ := stored_written hu clearFirst c false
  have hbeside : Bytes.SameBeside (l.offset u.target) l.copySize c
      (Memory.written c (u.writes l clearFirst)) := by
    refine Memory.written_induction
      (P := Bytes.SameBeside (l.offset u.target) l.copySize c) ?_ (.refl c)
    intro w hw c' o hc
    exact hc.trans (o.sameBeside_leave c' (within_of_mem_writes hl hu hw).2)
  have himagebeside : Bytes.SameBeside (l.offset u.target) l.copySize c
      (Bytes.overwrite c (l.offset u.target) u.image) := by
    apply Bytes.SameBeside.overwrite c (Nat.le_refl _)
    exact Nat.add_le_add_left (Nat.le_of_eq hu.length) _
  have hslice := Bytes.slice_overwrite c (l.offset u.target) u.image
  rw [hu.length] at hslice
  apply (hbeside.symm.trans himagebeside).eq_of_slice_eq hstored.fits
  · rw [Bytes.length_overwrite, hu.length]
    omega
  · rw [himage, hslice]

theorem contents_of_writeAll_ok (hl : l.Placed) (hu : u.Ready l h vs) {d d' : Memory}
    (hsame : Bytes.SameBeside (l.offset u.target) l.copySize d.contents d'.contents)
    {clearFirst clearFirst' : Bool}
    (hok : ((BlockDevice.writeAll (u.writes l clearFirst) : StateM Memory _) d).1 = .ok ())
    (hok' : ((BlockDevice.writeAll (u.writes l clearFirst') : StateM Memory _) d').1 = .ok ()) :
    ((BlockDevice.writeAll (u.writes l clearFirst) : StateM Memory _) d).2.contents =
      ((BlockDevice.writeAll (u.writes l clearFirst') : StateM Memory _) d').2.contents := by
  obtain ⟨hstored, himage⟩ := stored_of_writeAll_ok hl hu hok false
  obtain ⟨hstored', himage'⟩ := stored_of_writeAll_ok hl hu hok' false
  have hbeside := (sameBeside_writeAll hl hu clearFirst d).symm.trans
    (hsame.trans (sameBeside_writeAll hl hu clearFirst' d'))
  exact hbeside.eq_of_slice_eq hstored.fits hstored'.fits (himage.trans himage'.symm)

end Update

theorem Session.Grounded.commitWith_congr (hl : l.Placed) {s' : Session} {d d' : Memory}
    (hs : s.Grounded l v d.contents) {rival : Option Header}
    (hsame : s' = { s with rival := rival })
    (hbeside : Bytes.SameBeside (l.offset s.current.other) l.copySize d.contents d'.contents)
    (hok : ((s'.commitWith h : StateM Memory _) d').1.1 = .ok ())
    (hstored : ∀ w o, .write w o ∈ d.since ((s.commitWith h : StateM Memory _) d).2 → o = .stored) :
    ((s.commitWith h : StateM Memory _) d).1 = ((s'.commitWith h : StateM Memory _) d').1 ∧
      ((s.commitWith h : StateM Memory _) d).2.contents =
        ((s'.commitWith h : StateM Memory _) d').2.contents := by
  rcases s'.commitWith_cases h d' with
    ⟨e, he⟩ | ⟨u, hmode', hu', hd', ⟨hwritten', hout'⟩ | ⟨e, -, hout'⟩⟩
  · rw [he] at hok
    cases hok
  · -- what a session knows of the other slot decides none of this
    have hmode : s.mode = .writable := by rw [← hmode', hsame]
    have hu : s.nextUpdate h = .ok u := by rw [← hu', hsame]; rfl
    have hcommitted : s'.committed u = s.committed u := by rw [hsame]; rfl
    have hlayout : s'.layout = l := by rw [hsame]; exact hs.layout
    obtain ⟨htarget, hready⟩ := hs.nextUpdate_ready hl hu
    obtain ⟨hd, hresult⟩ := Session.commitWith_writes hmode hu d
    rw [hs.layout] at hd hresult
    rw [hlayout] at hd' hwritten'
    rw [hd] at hstored ⊢
    have hwritten := Memory.writeAll_ok_of_stored
      (fun w hw => (Update.within_of_mem_writes hl hready hw).1) hstored
    rcases hresult with ⟨-, hout⟩ | ⟨e, herr, -⟩
    · rw [hout, hout', hcommitted, hd']
      rw [← htarget] at hbeside
      exact ⟨rfl, Update.contents_of_writeAll_ok hl hready hbeside hwritten hwritten'⟩
    · rw [hwritten] at herr
      cases herr
  · rw [hout'] at hok
    cases hok

/-- A series of commits, those of the boot counters among them, that all fail. -/
inductive FailedCommits (s₀ : Session) (d₀ : Memory) : Session → Memory → Prop where
  | start : FailedCommits s₀ d₀ s₀ d₀
  | call {s : Session} {d : Memory} (op : Operation) {e : StoreError} : FailedCommits s₀ d₀ s d →
      op.header? s ≠ none → ((op.run s : StateM Memory _) d).1.1 = .error e →
      FailedCommits s₀ d₀ ((op.run s : StateM Memory _) d).1.2 ((op.run s : StateM Memory _) d).2

/-- A commit that fails changes only what the session knows of the other slot, and that slot. -/
theorem Operation.run_error (hl : l.Placed) {d : Memory} (hs : s.Grounded l v d.contents)
    {op : Operation} (hop : op.header? s ≠ none) {e : StoreError}
    (herr : ((op.run s : StateM Memory _) d).1.1 = .error e) :
    let out := (op.run s : StateM Memory _) d
    (∃ rival, out.1.2 = { s with rival := rival }) ∧
      Bytes.SameBeside (l.offset s.current.other) l.copySize d.contents out.2.contents := by
  obtain ⟨h, hh⟩ := Option.ne_none_iff_exists'.1 hop
  simp only [Operation.run_of_header? hh] at herr ⊢
  rcases s.commitWith_cases h d with ⟨e', he⟩ | ⟨u, -, hu, hd, ⟨-, hout⟩ | ⟨e', -, hout⟩⟩
  · rw [he]
    exact ⟨⟨s.rival, rfl⟩, .refl d.contents⟩
  · rw [hout] at herr
    cases herr
  · obtain ⟨htarget, hready⟩ := hs.nextUpdate_ready hl hu
    refine ⟨⟨some u.header, by rw [hout]; rfl⟩, ?_⟩
    rw [hd, hs.layout, ← htarget]
    exact Update.sameBeside_writeAll hl hready s.rivalOutranks d

theorem FailedCommits.same (hl : l.Placed) {s s' : Session} {d d' : Memory}
    (hs : s.Grounded l v d.contents) (hf : FailedCommits s d s' d') :
    s'.Grounded l v d'.contents ∧ (∃ rival, s' = { s with rival := rival }) ∧
      Bytes.SameBeside (l.offset s.current.other) l.copySize d.contents d'.contents := by
  induction hf with
  | start => exact ⟨hs, ⟨s.rival, rfl⟩, .refl d.contents⟩
  | call op _ hop herr ih =>
    obtain ⟨hgrounded, ⟨rival, rfl⟩, hbeside⟩ := ih
    obtain ⟨⟨rival', hsession⟩, hbeside'⟩ := op.run_error hl hgrounded hop herr
    exact ⟨op.grounded_run hl hgrounded, ⟨rival', hsession⟩, hbeside.trans hbeside'⟩

/-- Failed commits are invisible. However the store was opened and whatever happened since: a series
of commits that all fail leaves all that the session shows, and the bytes of its current copy. A
commit that succeeds after them, and the same commit without them and with no failing write, end
with one session and one device. -/
theorem failed_commits_invisible {settings : Settings} (hl : settings.layout = .ok l)
    {flags : OpenFlags} {d₀ : Memory} {s₀ : Session}
    (hopen : ((Session.openOn settings flags : StateM Memory _) d₀).1 = .ok s₀) {d : Memory}
    (hr : Reached (fun _ => True) s₀ ((Session.openOn settings flags : StateM Memory _) d₀).2 s d)
    {s' : Session} {d' : Memory} (hf : FailedCommits s d s' d') :
    (s'.current = s.current ∧ s'.header = s.header ∧ s'.vars = s.vars ∧ s'.mode = s.mode ∧
      Bytes.slice d'.contents (l.offset s.current) l.copySize =
        Bytes.slice d.contents (l.offset s.current) l.copySize) ∧
    ∀ (op : Operation) (e e' : Memory), op.header? s ≠ none → e.contents = d.contents →
      e'.contents = d'.contents → ((op.run s' : StateM Memory _) e').1.1 = .ok () →
      (∀ w o, .write w o ∈ e.since ((op.run s : StateM Memory _) e).2 → o = .stored) →
      ((op.run s : StateM Memory _) e).1 = ((op.run s' : StateM Memory _) e').1 ∧
        ((op.run s : StateM Memory _) e).2.contents =
          ((op.run s' : StateM Memory _) e').2.contents := by
  have hplaced := Settings.placed hl
  have hs := hr.grounded hplaced (Session.openOn_grounded hl hopen)
  obtain ⟨hs', ⟨rival, rfl⟩, hbeside⟩ := hf.same hplaced hs
  refine ⟨⟨rfl, rfl, rfl, rfl, ?_⟩, ?_⟩
  · exact hbeside.symm.slice_eq (hplaced.apart s.current) hs'.stored.fits hs.stored.fits
  intro op e e' hop he he' hok hstored
  obtain ⟨h, hh⟩ := Option.ne_none_iff_exists'.1 hop
  have hh' : op.header? { s with rival := rival } = some h := by
    cases op <;> exact hh
  rw [Operation.run_of_header? hh] at hstored ⊢
  rw [Operation.run_of_header? hh'] at hok ⊢
  rw [← he] at hs hbeside
  rw [← he'] at hbeside
  exact hs.commitWith_congr hplaced rfl hbeside hok hstored

/-- On a new store, a commit that is torn in its extension and a counted boot that is torn while it
clears the header block, and then a commit that succeeds. -/
theorem failed_commits_invisible_torn :
    let settings : Settings := { sectors := 1 }
    let tears (n : Nat) : Option Nat := if n = 6 then some 510 else if n = 7 then some 3 else none
    let d₀ : Memory := { plan := { writeTears := tears } }
    let d := ((Session.openOn settings {} : StateM Memory _) d₀).2
    ∃ s s' d', ((Session.openOn settings {} : StateM Memory _) d₀).1 = .ok s ∧
      FailedCommits s d s' d' ∧ s'.rivalOutranks ≠ s.rivalOutranks ∧
      ((Operation.commit.run s' : StateM Memory _) d').1.1 = .ok () ∧
      ((Operation.commit.run s : StateM Memory _) (d.withPlan {})).1 =
        ((Operation.commit.run s' : StateM Memory _) d').1 ∧
      ((Operation.commit.run s : StateM Memory _) (d.withPlan {})).2.contents =
        ((Operation.commit.run s' : StateM Memory _) d').2.contents := by
  intro settings tears d₀ d
  have hl : settings.layout = .ok ⟨1, 0, 1024⟩ := eq_ok_of_toOption (by decide +kernel)
  have hrun : (((Session.openOn settings {} : StateM Memory _) d₀).1.toOption.any fun s =>
      let torn := (Operation.commit.run s : StateM Memory _) d
      let cut := (Operation.markInProgress.run torn.1.2 : StateM Memory _) torn.2
      let last := (Operation.commit.run cut.1.2 : StateM Memory _) cut.2
      let e := d.withPlan {}
      torn.1.1.toOption.isNone && cut.1.1.toOption.isNone && last.1.1.toOption == some () &&
        cut.1.2.rivalOutranks != s.rivalOutranks &&
        (e.since ((Operation.commit.run s : StateM Memory _) e).2).all
          (·.outcome? == some .stored)) = true := by
    decide +kernel
  obtain ⟨s, hopen, hchecks⟩ := (Option.any_eq_true _ _).1 hrun
  simp only [Bool.and_eq_true, List.all_eq_true, beq_iff_eq, bne_iff_ne] at hchecks
  obtain ⟨⟨⟨⟨htorn, hcut⟩, hlast⟩, hrival⟩, hstored⟩ := hchecks
  have hopen := eq_ok_of_toOption hopen
  obtain ⟨e₁, htorn⟩ := eq_error_of_toOption htorn
  obtain ⟨e₂, hcut⟩ := eq_error_of_toOption hcut
  have hstart : FailedCommits s d s d := .start
  obtain ⟨s', d', hf, hrival, hlast⟩ : ∃ s' d', FailedCommits s d s' d' ∧
      s'.rivalOutranks ≠ s.rivalOutranks ∧
      ((Operation.commit.run s' : StateM Memory _) d').1.1 = .ok () :=
    ⟨_, _, (hstart.call .commit nofun htorn).call .markInProgress nofun hcut, hrival,
      eq_ok_of_toOption hlast⟩
  have hcalls : ∀ w o, .write w o ∈ (d.withPlan {}).since
      ((Operation.commit.run s : StateM Memory _) (d.withPlan {})).2 → o = .stored := by
    intro w o hx
    exact Option.some.inj (hstored _ hx)
  obtain ⟨hsession, hdevice⟩ := (failed_commits_invisible hl hopen .start hf).2 .commit
    (d.withPlan {}) d' nofun (d.contents_withPlan {}) rfl hlast hcalls
  exact ⟨s, s', d', hopen, hf, hrival, hlast, hsession, hdevice⟩

end BootStore
