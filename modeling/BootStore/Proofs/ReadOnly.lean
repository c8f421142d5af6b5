import BootStore.Proofs.Opening

/-!
# Sessions that may not write

A session that may not write refuses every operation without a call to the device, and shows for
good what it showed when it was opened (`closed_sessions_never_write`).
-/
namespace BootStore

def Layout.regionOn (l : Layout) (contents : Bytes) (t : Slot) : Bytes :=
  Copy.variableRegion l (Bytes.slice contents (l.offset t) l.copySize)

namespace Operation

section RunAll

variable {m : Type → Type} [Monad m] [BlockDevice m]

/-- Calls operations one after another, whatever they answer: the answers, and the session that
the last one leaves. -/
def runAll (s : Session) : List Operation → m (List (Except StoreError Unit) × Session)
  | [] => pure ([], s)
  | op :: rest => do
    let (answer, after) ← op.run s
    let (answers, last) ← runAll after rest
    return (answer :: answers, last)

variable [LawfulMonad m] {s : Session}

theorem run_refused (hs : s.isReadOnly = true) (op : Operation) :
    (op.run s : m _) = pure (.error .readOnly, s) := by
  cases op with
  | set name value => simp only [run, Session.set, hs, if_true, edit]
  | delete name => simp only [run, Session.delete, Session.set, hs, if_true, edit]
  | commit => exact Session.commitWith_refused hs s.header
  | markInProgress =>
    simp only [run, Session.markInProgress, Session.commitHeader_refused hs, pure_bind]
    rfl
  | markSuccessful =>
    simp only [run, Session.markSuccessful, Session.commitHeader_refused hs, pure_bind]
    rfl

theorem runAll_refused (hs : s.isReadOnly = true) (ops : List Operation) :
    (runAll s ops : m _) = pure (ops.map fun _ => .error .readOnly, s) := by
  induction ops with
  | nil => rfl
  | cons op ops ih => simp only [runAll, run_refused hs, pure_bind, ih, List.map_cons]

end RunAll

end Operation

namespace Session

variable {l : Layout} {v readOnly : Bool} {flags : OpenFlags} {d : Memory} {s : Session}

theorem write_notMem_survey (l : Layout) (v : Bool) (d : Memory) (w : Write) (o : WriteOutcome) :
    .write w o ∉ d.since ((Survey.take l v : StateM Memory _) d).2 := by
  obtain ⟨calls, htaken, hlog, -⟩ := Survey.taken l v d
  rw [Memory.since_of_log_eq hlog]
  exact Survey.write_notMem_calls htaken w o

theorem begin_of_found (hforce : flags.forceInit = false)
    (hfound : flags.readOnly = true ∨ ((Survey.take l v : StateM Memory _) d).1.current? ≠ none) :
    ∃ result, (begin l v flags : StateM Memory _) d =
        (result, ((Survey.take l v : StateM Memory _) d).2) ∧
      ∀ s, result = .ok s ↔
        ofSurvey l flags.readOnly ((Survey.take l v : StateM Memory _) d).1 = some s := by
  cases hs : ofSurvey l flags.readOnly ((Survey.take l v : StateM Memory _) d).1 with
  | none =>
    have hreader : flags.readOnly = true := by
      rcases hfound with hreader | hfound
      · exact hreader
      · exact absurd (ofSurvey_eq_none_iff.1 hs) hfound
    refine ⟨.error .noValidStore, ?_, fun s => ⟨nofun, nofun⟩⟩
    simp only [begin_apply, hs, if_pos hreader]
  | some s =>
    refine ⟨.ok s, ?_, ?_⟩
    · simp only [begin_apply, hs, hforce, Bool.false_eq_true, if_false]
    · intro s'
      rw [Except.ok.injEq, Option.some.injEq]

theorem Begun.vars_eq (hs : s.Begun l readOnly ((Survey.take l v : StateM Memory _) d).1) :
    s.vars = (Region.readTolerant (l.regionOn d.contents s.current)).1 ∧
      (s.isDegraded = true ↔
        (Region.readTolerant (l.regionOn d.contents s.current)).2 ≠ none) := by
  obtain ⟨calls, htaken, -⟩ := Survey.taken l v d
  have hbytes := ((htaken s.current).header?_eq_some hs.header).2.1
  rw [Layout.regionOn, ← hbytes]
  exact ⟨hs.vars, hs.degraded⟩

theorem Begun.damaged_iff (hs : s.Begun l readOnly ((Survey.take l v : StateM Memory _) d).1) :
    s.isDegraded = true ↔
      ∃ defect, Region.readTolerant (l.regionOn d.contents s.current) = (s.vars, some defect) := by
  obtain ⟨hvars, hdegraded⟩ := hs.vars_eq
  rw [hdegraded, Option.ne_none_iff_exists', hvars]
  constructor
  · rintro ⟨defect, hdefect⟩
    exact ⟨defect, Prod.ext rfl hdefect⟩
  · rintro ⟨defect, hdefect⟩
    exact ⟨defect, congrArg Prod.snd hdefect⟩

theorem openOn_reader {settings : Settings} (hreader : flags.readOnly = true) (d : Memory) :
    (∀ w o, .write w o ∉ d.since ((openOn settings flags : StateM Memory _) d).2) ∧
    ∀ s, ((openOn settings flags : StateM Memory _) d).1 = .ok s →
      ∃ l, ∃ survey : Survey, s.Begun l true survey := by
  cases hcheck : flags.check with
  | error e =>
    simp only [openOn, hcheck]
    refine ⟨fun w o => by simp [Memory.pure_apply, Memory.since_self], ?_⟩
    intro s hs
    cases hs
  | ok =>
    cases hl : settings.layout with
    | error e =>
      simp only [openOn, hcheck, hl]
      refine ⟨fun w o => by simp [Memory.pure_apply, Memory.since_self], ?_⟩
      intro s hs
      cases hs
    | ok l =>
      have hforce : flags.forceInit = false := by
        cases hforce : flags.forceInit with
        | false => rfl
        | true =>
          simp only [OpenFlags.check, hreader, hforce, Bool.and_self, if_true] at hcheck
          cases hcheck
      obtain ⟨result, hbegin, hok⟩ :=
        begin_of_found (l := l) (v := settings.verifyHeader) (d := d) hforce (Or.inl hreader)
      rw [openOn_eq_begin hl hcheck, hbegin]
      constructor
      · exact write_notMem_survey l settings.verifyHeader d
      · intro s hs
        have hbegun := ofSurvey_begun ((hok s).1 hs)
        rw [hreader] at hbegun
        exact ⟨l, _, hbegun⟩

theorem openOn_isReadOnly_iff {settings : Settings}
    (hs : ((openOn settings flags : StateM Memory _) d).1 = .ok s) :
    s.isReadOnly = true ↔ flags.readOnly = true ∨ s.isDegraded = true := by
  by_cases hreader : flags.readOnly = true
  · obtain ⟨l, survey, hbegun⟩ := (openOn_reader hreader d).2 s hs
    rw [hbegun.isReadOnly_iff, hreader]
  · cases hl : settings.layout with
    | error e =>
      simp only [openOn, openOn_check hs, hl] at hs
      cases hs
    | ok l =>
      rcases openOn_cases hl hs with ⟨hbegun, -⟩ | ⟨vs, u, -, -, -, rfl, -⟩
      · exact hbegun.isReadOnly_iff
      · -- only a writer establishes a store
        simp [hreader, isReadOnly, isDegraded, ofFirstUpdate]

section Found

variable {settings : Settings} (hl : settings.layout = .ok l) (hforce : flags.forceInit = false)

include hl hforce

theorem openOn_of_found
    (hfound : ((Survey.take l settings.verifyHeader : StateM Memory _) d).1.current? ≠ none) :
    ((openOn settings flags : StateM Memory _) d).2 =
        ((Survey.take l settings.verifyHeader : StateM Memory _) d).2 ∧
      ∀ s, ((openOn settings flags : StateM Memory _) d).1 = .ok s ↔
        ofSurvey l flags.readOnly
          ((Survey.take l settings.verifyHeader : StateM Memory _) d).1 = some s := by
  have hcheck : flags.check = .ok () := by
    simp only [OpenFlags.check, hforce, Bool.and_false, Bool.false_eq_true, if_false]
  obtain ⟨result, hbegin, hok⟩ := begin_of_found hforce (Or.inr hfound)
  rw [openOn_eq_begin hl hcheck, hbegin]
  exact ⟨rfl, hok⟩

theorem openOn_degraded_iff (t : Slot) (vs : Variables) :
    (∃ s, ((openOn settings flags : StateM Memory _) d).1 = .ok s ∧ s.isDegraded = true ∧
      s.current = t ∧ s.vars = vs) ↔
    ((Survey.take l settings.verifyHeader : StateM Memory _) d).1.current? = some t ∧
      ∃ defect, Region.readTolerant (l.regionOn d.contents t) = (vs, some defect) := by
  constructor
  · rintro ⟨s, hs, hdegraded, rfl, rfl⟩
    rcases openOn_cases hl hs with ⟨hbegun, -⟩ | ⟨vs, u, -, -, -, rfl, -⟩
    · exact ⟨hbegun.current, hbegun.damaged_iff.1 hdegraded⟩
    · cases hdegraded
  · rintro ⟨hcurrent, defect, hdefect⟩
    obtain ⟨h, hh, -⟩ := (Survey.current?_eq_some_iff _ t).1 hcurrent
    obtain ⟨s, hs, rfl, -, hbegun⟩ := ofSurvey_of_current? l hcurrent hh flags.readOnly
    have hvars : s.vars = vs := by
      rw [hbegun.vars_eq.1]
      exact congrArg Prod.fst hdefect
    refine ⟨s, ((openOn_of_found hl hforce ?_).2 s).2 hs, ?_, rfl, hvars⟩
    · rw [hcurrent]
      exact Option.some_ne_none _
    · rw [hbegun.damaged_iff, hvars]
      exact ⟨defect, hdefect⟩

end Found

end Session

/-- Sessions that may not write never do, whatever fails. An opening for reading only calls the
device for no write, and neither does one that finds a copy and is not told to start anew. The
session is degraded exactly if reading the variables of the current copy stops at a defect, and it
shows the entries before the damage. One that is read-only or degraded refuses every series of
operations, leaves the device alone and stays what it is. -/
theorem closed_sessions_never_write (settings : Settings) (flags : OpenFlags) (d : Memory) :
    let out := (Session.openOn settings flags : StateM Memory _) d
    (flags.readOnly = true → ∀ w o, .write w o ∉ d.since out.2) ∧
    (∀ l, settings.layout = .ok l → flags.forceInit = false →
      let survey := ((Survey.take l settings.verifyHeader : StateM Memory _) d).1
      (survey.current? ≠ none → ∀ w o, .write w o ∉ d.since out.2) ∧
      (∀ t vs, (∃ s, out.1 = .ok s ∧ s.isDegraded = true ∧ s.current = t ∧ s.vars = vs) ↔
        survey.current? = some t ∧
          ∃ defect, Region.readTolerant (l.regionOn d.contents t) = (vs, some defect)) ∧
      ∀ s, out.1 = .ok s → s.isDegraded = true →
        Region.Damaged (l.regionOn d.contents s.current) s.vars) ∧
    ∀ s, out.1 = .ok s →
      (s.isReadOnly = true ↔ flags.readOnly = true ∨ s.isDegraded = true) ∧
      (s.isReadOnly = true → ∀ (ops : List Operation) (e : Memory),
        (Operation.runAll s ops : StateM Memory _) e =
          ((ops.map fun _ => .error .readOnly, s), e)) := by
  intro out
  refine ⟨?_, ?_, ?_⟩
  · intro hreader
    exact (Session.openOn_reader hreader d).1
  · intro l hl hforce survey
    have hdegraded := Session.openOn_degraded_iff (d := d) hl hforce
    refine ⟨?_, hdegraded, ?_⟩
    · intro hfound w o
      have hout : out.2 = _ := (Session.openOn_of_found hl hforce hfound).1
      rw [hout]
      exact Session.write_notMem_survey l settings.verifyHeader d w o
    · intro s hs hd
      obtain ⟨-, defect, hdefect⟩ := (hdegraded s.current s.vars).1 ⟨s, hs, hd, rfl, rfl⟩
      exact Region.damaged_iff.2 ⟨defect, hdefect⟩
  · intro s hs
    refine ⟨Session.openOn_isReadOnly_iff hs, ?_⟩
    intro hclosed ops e
    rw [Operation.runAll_refused hclosed ops]
    rfl

/-- A copy whose second variable has a name that is not UTF-8: a writer opens it, sees the first
variable and may not write. -/
theorem closed_sessions_never_write_damaged :
    let settings : Settings := { sectors := 1 }
    let l : Layout := ⟨1, 0, 1024⟩
    let region : Bytes := [65, 0, 49, 0, 255, 0, 50, 0] ++ Bytes.zeros 992
    let d : Memory := { contents := (Copy.stamp (.fresh 0 0 1 1) (Update.unstamped l region)).2 }
    let out := (Session.openOn settings {} : StateM Memory _) d
    settings.layout = .ok l ∧ (∀ w o, .write w o ∉ d.since out.2) ∧
    ∃ s, out.1 = .ok s ∧ s.isDegraded = true ∧ s.vars = .of [⟨"A", "1"⟩] ∧
      Region.Damaged (l.regionOn d.contents s.current) s.vars ∧
      ∀ (ops : List Operation) (e : Memory), (Operation.runAll s ops : StateM Memory _) e =
        ((ops.map fun _ => .error .readOnly, s), e) := by
  intro settings l region d out
  have hl : settings.layout = .ok l := eq_ok_of_toOption (by decide +kernel)
  have hplaced := Settings.placed hl
  have hlen : region.length = l.variableSpace := by decide +kernel
  have hregion : Copy.variableRegion l d.contents = region :=
    Update.variableRegion_stamp_unstamped hplaced _ hlen
  have hfinds : d.Finds l settings.verifyHeader .a _ d.contents :=
    Memory.finds_front hplaced rfl (by decide) rfl (Update.length_unstamped hlen) rfl
  have hreads : d.ReadsSucceed := fun _ => rfl
  have hkept : ({} : OpenFlags).forceInit = false := rfl
  have hdamaged : Region.Damaged region (.of [⟨"A", "1"⟩]) :=
    ⟨by decide, 255 :: 0 :: 50 :: 0 :: Bytes.zeros 992, .notUtf8, rfl, by decide, rfl⟩
  -- from here on nothing looks into the copy
  clear_value d region
  obtain ⟨defect, hdefect⟩ := Region.damaged_iff.1 hdamaged
  obtain ⟨s, hs, -, -, hvars, hdegraded, -⟩ :=
    Session.openOn_found hl hkept hreads hfinds
  rw [hregion, hdefect] at hvars hdegraded
  have hs : out.1 = .ok s := congrArg Prod.fst hs
  have hdegraded := hdegraded.2 nofun
  obtain ⟨-, hopen, hsession⟩ := closed_sessions_never_write settings {} d
  obtain ⟨hsilent, -, hshown⟩ := hopen l hl hkept
  obtain ⟨hclosed, hrefused⟩ := hsession s hs
  refine ⟨hl, hsilent ?_, s, hs, hdegraded, hvars, hshown s hs hdegraded,
    hrefused (hclosed.2 (Or.inr hdegraded))⟩
  rw [Memory.current?_take hreads, hfinds.current]
  exact Option.some_ne_none _

end BootStore
