import BootStore.Proofs.Operations
import BootStore.Proofs.Ranking
import BootStore.Session.Opening

/-!
# Opening a store

What opening does on a memory device: it surveys both copies and begins on the one that is found,
or it blanks both and writes a first copy (`Session.openOn_cases`). Either way the session it gives
is grounded.
-/
namespace BootStore

theorem eq_ok_of_toOption {ε α : Type} {x : Except ε α} {a : α} (h : x.toOption = some a) :
    x = .ok a := by
  cases x with
  | error e => cases h
  | ok b =>
    cases h
    rfl

theorem eq_error_of_toOption {ε α : Type} {x : Except ε α} (h : x.toOption.isNone = true) :
    ∃ e, x = .error e := by
  cases x with
  | error e => exact ⟨e, rfl⟩
  | ok a => cases h

namespace Survey

theorem current?_isSome_iff (survey : Survey) :
    survey.current? ≠ none ↔ ∃ s, (survey.sighting s).header? ≠ none := by
  constructor
  · intro hc
    obtain ⟨s, hs⟩ := Option.ne_none_iff_exists'.1 hc
    obtain ⟨h, hh, -⟩ := (survey.current?_eq_some_iff s).1 hs
    exact ⟨s, by rw [hh]; exact Option.some_ne_none h⟩
  · rintro ⟨s, hs⟩
    unfold current?
    cases ha : survey.a.header? with
    | none =>
      cases hb : survey.b.header? with
      | none =>
        cases s with
        | a => exact absurd ha hs
        | b => exact absurd hb hs
      | some g => exact Option.some_ne_none _
    | some h =>
      cases hb : survey.b.header? with
      | none => exact Option.some_ne_none _
      | some g =>
        simp only [Option.map_some]
        rcases Slot.newer_some_some h.serial g.serial with hn | hn
        · rw [hn]
          exact Option.some_ne_none _
        · rw [hn]
          exact Option.some_ne_none _

end Survey

theorem Memory.current?_of_headless {d : Memory} {l : Layout} {v : Bool}
    (hnone : ∀ t, l.Headless d.contents t) : (d.survey l v).current? = none := by
  by_cases hc : (d.survey l v).current? = none
  · exact hc
  · obtain ⟨t, ht⟩ := (Survey.current?_isSome_iff _).1 hc
    obtain ⟨h, hh⟩ := Option.ne_none_iff_exists'.1 ht
    exact absurd ((d.survey_header?_eq_some_iff l v t h).1 hh) (hnone t).not_stored

namespace Session

/-- What a session that begins on a survey takes from it. -/
structure Begun (l : Layout) (readOnly : Bool) (survey : Survey) (s : Session) : Prop where
  current : survey.current? = some s.current
  header : (survey.sighting s.current).header? = some s.header
  layout : s.layout = l
  vars : s.vars = (Region.readTolerant
    (Copy.variableRegion l (survey.sighting s.current).bytes)).1
  rival : s.rival = (survey.sighting s.current.other).apparentHeader?
  degraded : s.isDegraded = true ↔ (Region.readTolerant
    (Copy.variableRegion l (survey.sighting s.current).bytes)).2 ≠ none
  writable : s.mode = .writable ↔ readOnly = false ∧ s.isDegraded = false

theorem Begun.isReadOnly_iff {l : Layout} {readOnly : Bool} {survey : Survey} {s : Session}
    (hs : s.Begun l readOnly survey) :
    s.isReadOnly = true ↔ readOnly = true ∨ s.isDegraded = true := by
  rw [← Bool.not_eq_false, isReadOnly_eq_false, hs.writable]
  cases readOnly <;> cases s.isDegraded <;> decide

theorem ofSurvey_of_current? (l : Layout) {survey : Survey} {t : Slot} {h : Header}
    (hc : survey.current? = some t) (hh : (survey.sighting t).header? = some h) (readOnly : Bool) :
    ∃ s, ofSurvey l readOnly survey = some s ∧ s.current = t ∧ s.header = h ∧
      s.Begun l readOnly survey := by
  obtain ⟨vs, defect, hv⟩ : ∃ vs defect,
      Region.readTolerant (Copy.variableRegion l (survey.sighting t).bytes) = (vs, defect) :=
    ⟨_, _, rfl⟩
  simp only [ofSurvey, hc, hh, hv, Option.bind_eq_bind, Option.bind_some, Option.pure_def,
    Option.some.injEq, exists_eq_left']
  refine ⟨trivial, trivial, ⟨hc, hh, rfl, by rw [hv], rfl, ?_, ?_⟩⟩
  · rw [hv]
    cases defect <;> cases readOnly <;> simp [isDegraded]
  · cases defect <;> cases readOnly <;> simp [isDegraded]

theorem ofSurvey_begun {l : Layout} {readOnly : Bool} {survey : Survey} {s : Session}
    (hs : ofSurvey l readOnly survey = some s) : s.Begun l readOnly survey := by
  cases hc : survey.current? with
  | none =>
    simp only [ofSurvey, hc, Option.bind_eq_bind, Option.bind_none] at hs
    cases hs
  | some t =>
    obtain ⟨h, hh, -⟩ := (survey.current?_eq_some_iff t).1 hc
    obtain ⟨s', hs', -, -, hbegun⟩ := ofSurvey_of_current? l hc hh readOnly
    rw [hs] at hs'
    cases hs'
    exact hbegun

theorem ofSurvey_eq_none_iff {l : Layout} {readOnly : Bool} {survey : Survey} :
    ofSurvey l readOnly survey = none ↔ survey.current? = none := by
  cases hc : survey.current? with
  | none => simp only [ofSurvey, hc, Option.bind_eq_bind, Option.bind_none]
  | some t =>
    obtain ⟨h, hh, -⟩ := (survey.current?_eq_some_iff t).1 hc
    obtain ⟨s, hs, -⟩ := ofSurvey_of_current? l hc hh readOnly
    rw [hs]
    simp

theorem begin_apply (l : Layout) (v : Bool) (flags : OpenFlags) (d : Memory) :
    (begin l v flags : StateM Memory _) d =
      let survey := (Survey.take l v : StateM Memory _) d
      match ofSurvey l flags.readOnly survey.1 with
      | none =>
        if flags.readOnly then (.error .noValidStore, survey.2)
        else (establish l {} : StateM Memory _) survey.2
      | some s =>
        if flags.forceInit then (establish l s.vars.preserved : StateM Memory _) survey.2
        else (.ok s, survey.2) := by
  simp only [begin, Memory.bind_apply]
  cases ofSurvey l flags.readOnly ((Survey.take l v : StateM Memory _) d).1 with
  | none => cases flags.readOnly <;> rfl
  | some s => cases flags.forceInit <;> rfl

theorem openOn_eq_begin {settings : Settings} {l : Layout} (hl : settings.layout = .ok l)
    {flags : OpenFlags} (hf : flags.check = .ok ()) (d : Memory) :
    (openOn settings flags : StateM Memory _) d =
      (begin l settings.verifyHeader flags : StateM Memory _) d := by
  simp only [openOn, hf, hl]

theorem openOn_check {settings : Settings} {flags : OpenFlags} {d : Memory} {s : Session}
    (h : ((openOn settings flags : StateM Memory _) d).1 = .ok s) : flags.check = .ok () := by
  cases hf : flags.check with
  | ok => rfl
  | error e =>
    simp only [openOn, hf] at h
    cases h

def established (l : Layout) (u : Update) (contents : Bytes) : Bytes :=
  Memory.written (Memory.written contents (blanking l)) (u.parts l)

theorem data_ne_nil_of_mem_blanking {l : Layout} (hl : l.Placed) {w : Write}
    (hw : w ∈ blanking l) : w.data ≠ [] := by
  have hsector := hl.sectorSize_le
  have hne : ∀ n, 0 < n → Bytes.zeros n ≠ [] := by
    intro n hn
    apply List.ne_nil_of_length_pos
    rw [Bytes.length_zeros]
    exact hn
  have hext : 0 < l.extensionSize := Nat.lt_of_lt_of_le (by decide) hsector
  simp only [blanking, List.flatMap_cons, List.flatMap_nil, List.append_nil, List.cons_append,
    List.nil_append, List.mem_cons, List.not_mem_nil, or_false] at hw
  rcases hw with rfl | rfl | rfl | rfl
  · exact hne blockSize (by decide)
  · exact hne _ hext
  · exact hne blockSize (by decide)
  · exact hne _ hext

theorem firstUpdate_ready {l : Layout} (hl : l.Placed) {vs : Variables} {u : Update}
    (hu : firstUpdate l vs = .ok u) : u.target = .a ∧ u.Ready l (.fresh 0 0 1 l.sectors) vs :=
  Update.prepare_ready hl (UInt16.le_refl _) rfl hu

theorem establish_apply (l : Layout) (vs : Variables) (d : Memory) :
    (establish l vs : StateM Memory _) d =
      let blanked := (BlockDevice.writeAll (blanking l) : StateM Memory _) d
      match blanked.1 with
      | .error e => (.error (.io e), blanked.2)
      | .ok () =>
        match firstUpdate l vs with
        | .error e => (.error (.indeterminate e), blanked.2)
        | .ok u =>
          let written := (BlockDevice.writeAll (u.parts l) : StateM Memory _) blanked.2
          match written.1 with
          | .error e => (.error (.indeterminate (.io e)), written.2)
          | .ok () => (.ok (ofFirstUpdate l vs u), written.2) := by
  simp only [establish, Memory.bind_apply]
  cases ((BlockDevice.writeAll (blanking l) : StateM Memory _) d).1 with
  | error e => rfl
  | ok =>
    cases firstUpdate l vs with
    | error e => rfl
    | ok u =>
      simp only [Memory.bind_apply]
      cases ((BlockDevice.writeAll (u.parts l) : StateM Memory _)
        ((BlockDevice.writeAll (blanking l) : StateM Memory _) d).2).1 <;> rfl

theorem establish_whole {l : Layout} (hl : l.Placed) {vs : Variables} {d : Memory} {s : Session}
    (h : ((establish l vs : StateM Memory _) d).1 = .ok s) :
    ∃ u, firstUpdate l vs = .ok u ∧ s = ofFirstUpdate l vs u ∧
      ((establish l vs : StateM Memory _) d).2.contents = established l u d.contents ∧
      d.since ((establish l vs : StateM Memory _) d).2 =
        (blanking l ++ u.parts l).map Write.whole := by
  rw [establish_apply] at h ⊢
  rcases Memory.writeAll_cases (blanking l) (fun w => data_ne_nil_of_mem_blanking hl) d with
    ⟨hblank, hcontents, hlog⟩ | ⟨e, -, -, -, -, -, herr, -⟩
  · cases hu : firstUpdate l vs with
    | error e =>
      simp only [hblank, hu] at h
      cases h
    | ok u =>
      have hready := (firstUpdate_ready hl hu).2
      have hne : ∀ w ∈ u.parts l, w.data ≠ [] := fun w hw =>
        (Update.within_of_mem_writes hl hready (show w ∈ u.writes l false from hw)).1
      rcases Memory.writeAll_cases (u.parts l) hne
        ((BlockDevice.writeAll (blanking l) : StateM Memory _) d).2 with
        ⟨hparts, hcontents', hlog'⟩ | ⟨e, -, -, -, -, -, herr, -⟩
      · simp only [hblank, hu, hparts] at h ⊢
        refine ⟨u, rfl, (Except.ok.inj h).symm, ?_, Memory.since_of_log_eq ?_⟩
        · rw [established, ← hcontents]
          exact hcontents'
        · rw [hlog', hlog, List.append_assoc, ← List.map_append]
      · simp only [hblank, hu, herr] at h
        cases h
  · simp only [herr] at h
    cases h

theorem establish_ok {l : Layout} (hl : l.Placed) {vs : Variables} {d : Memory} {s : Session}
    (h : ((establish l vs : StateM Memory _) d).1 = .ok s) :
    ∃ u, firstUpdate l vs = .ok u ∧ s = ofFirstUpdate l vs u ∧
      ((establish l vs : StateM Memory _) d).2.contents = established l u d.contents := by
  obtain ⟨u, hu, hs, hcontents, -⟩ := establish_whole hl h
  exact ⟨u, hu, hs, hcontents⟩

/-- The writes of establishing a store, so far as its variables can be packed. -/
def establishing (l : Layout) (vs : Variables) : List Write :=
  match firstUpdate l vs with
  | .error _ => blanking l
  | .ok u => blanking l ++ u.parts l

theorem establish_device (l : Layout) (vs : Variables) (d : Memory) :
    ((establish l vs : StateM Memory _) d).2 =
      ((BlockDevice.writeAll (establishing l vs) : StateM Memory _) d).2 := by
  rw [establish_apply, establishing]
  dsimp only
  cases firstUpdate l vs with
  | error e =>
    dsimp only
    cases ((BlockDevice.writeAll (blanking l) : StateM Memory _) d).1 <;> dsimp only
  | ok u =>
    simp only [Memory.writeAll_append]
    cases ((BlockDevice.writeAll (blanking l) : StateM Memory _) d).1 with
    | error e => rfl
    | ok =>
      dsimp only
      cases ((BlockDevice.writeAll (u.parts l) : StateM Memory _)
        ((BlockDevice.writeAll (blanking l) : StateM Memory _) d).2).1 <;> rfl

theorem establish_log (l : Layout) (vs : Variables) (d : Memory) :
    ∃ calls, ((establish l vs : StateM Memory _) d).2.log = d.log ++ calls ∧
      ∃ w o, .write w o ∈ calls := by
  obtain ⟨calls, hlog, hwrite⟩ := Memory.writeAll_log (establishing l vs) d
  rw [establish_device]
  refine ⟨calls, hlog, hwrite ?_⟩
  unfold establishing
  split <;> exact List.cons_ne_nil _ _

/-- The variables with which an opening initializes the store; none if it begins on a copy that the
survey found. -/
def initialVars? (l : Layout) (flags : OpenFlags) (survey : Survey) : Option Variables :=
  match ofSurvey l flags.readOnly survey with
  | none => some (.of [])
  | some s => if flags.forceInit then some s.vars.preserved else none

theorem initialVars?_eq_none_iff {l : Layout} {flags : OpenFlags} {survey : Survey} :
    initialVars? l flags survey = none ↔ flags.forceInit = false ∧ survey.current? ≠ none := by
  unfold initialVars?
  cases hs : ofSurvey l flags.readOnly survey with
  | none => simp [ofSurvey_eq_none_iff.1 hs]
  | some s =>
    have hfound : survey.current? ≠ none := by
      rw [(ofSurvey_begun hs).current]
      exact Option.some_ne_none _
    cases flags.forceInit <;> simp [hfound]

theorem storable_initialVars? {l : Layout} {flags : OpenFlags} {survey : Survey} {vs : Variables}
    (h : initialVars? l flags survey = some vs) : vs.Storable := by
  unfold initialVars? at h
  cases hs : ofSurvey l flags.readOnly survey with
  | none =>
    simp only [hs] at h
    cases h
    exact Variables.storable_empty
  | some s =>
    simp only [hs] at h
    split at h
    · cases h
      apply Variables.Storable.preserved
      rw [(ofSurvey_begun hs).vars]
      exact Region.storable_readTolerant _
    · cases h

/-- An opening that succeeds gave the session that begins on the survey, or what establishing the
store gave. -/
theorem openOn_starts {settings : Settings} {l : Layout} (hl : settings.layout = .ok l)
    {flags : OpenFlags} {d : Memory} {s : Session}
    (h : ((openOn settings flags : StateM Memory _) d).1 = .ok s) :
    let survey := (Survey.take l settings.verifyHeader : StateM Memory _) d
    (initialVars? l flags survey.1 = none ∧ s.Begun l flags.readOnly survey.1 ∧
      (openOn settings flags : StateM Memory _) d = (.ok s, survey.2)) ∨
    ∃ vs, initialVars? l flags survey.1 = some vs ∧
      (openOn settings flags : StateM Memory _) d =
        (establish l vs : StateM Memory _) survey.2 := by
  intro survey
  have hcheck := openOn_check h
  rw [openOn_eq_begin hl hcheck, begin_apply] at h ⊢
  unfold initialVars?
  cases hs : ofSurvey l flags.readOnly survey.1 with
  | none =>
    simp only [survey, hs] at h ⊢
    by_cases hro : flags.readOnly = true
    · rw [if_pos hro] at h
      cases h
    · rw [if_neg hro]
      exact Or.inr ⟨{}, rfl, rfl⟩
  | some s' =>
    simp only [survey, hs] at h ⊢
    by_cases hforce : flags.forceInit = true
    · rw [if_pos hforce, if_pos hforce]
      exact Or.inr ⟨_, rfl, rfl⟩
    · rw [if_neg hforce] at h
      cases h
      rw [if_neg hforce, if_neg hforce]
      exact Or.inl ⟨rfl, ofSurvey_begun hs, rfl⟩

theorem openOn_cases {settings : Settings} {l : Layout} (hl : settings.layout = .ok l)
    {flags : OpenFlags} {d : Memory} {s : Session}
    (h : ((openOn settings flags : StateM Memory _) d).1 = .ok s) :
    let survey := (Survey.take l settings.verifyHeader : StateM Memory _) d
    let after := ((openOn settings flags : StateM Memory _) d).2
    (s.Begun l flags.readOnly survey.1 ∧ after = survey.2) ∨
    ∃ vs u, vs.Storable ∧ u.target = .a ∧ u.Ready l (.fresh 0 0 1 l.sectors) vs ∧
      s = ofFirstUpdate l vs u ∧ after = ((establish l vs : StateM Memory _) survey.2).2 ∧
      after.contents = established l u d.contents := by
  have hplaced := Settings.placed hl
  obtain ⟨-, -, -, hsame⟩ := Survey.taken l settings.verifyHeader d
  rcases openOn_starts hl h with ⟨-, hbegun, hopen⟩ | ⟨vs, hvars, hestablish⟩
  · rw [hopen]
    exact Or.inl ⟨hbegun, rfl⟩
  · rw [hestablish] at h
    obtain ⟨u, hu, hs, hcontents⟩ := establish_ok hplaced h
    obtain ⟨htarget, hready⟩ := firstUpdate_ready hplaced hu
    rw [hsame.contents] at hcontents
    rw [hestablish]
    exact Or.inr ⟨vs, u, storable_initialVars? hvars, htarget, hready, hs, rfl, hcontents⟩

theorem openOn_device {settings : Settings} {l : Layout} (hl : settings.layout = .ok l)
    (flags : OpenFlags) (d : Memory) :
    let after := ((openOn settings flags : StateM Memory _) d).2
    after.contents = d.contents ∨ ∃ vs, ∃ e : Memory, e.contents = d.contents ∧
      after = ((establish l vs : StateM Memory _) e).2 := by
  obtain ⟨-, -, -, hsame⟩ := Survey.taken l settings.verifyHeader d
  cases hf : flags.check with
  | error e =>
    left
    simp only [openOn, hf]
    rfl
  | ok =>
    rw [openOn_eq_begin hl hf, begin_apply]
    cases hs : ofSurvey l flags.readOnly
        ((Survey.take l settings.verifyHeader : StateM Memory _) d).1 with
    | none =>
      simp only [hs]
      by_cases hro : flags.readOnly = true
      · rw [if_pos hro]
        exact Or.inl hsame.contents
      · rw [if_neg hro]
        exact Or.inr ⟨_, _, hsame.contents, rfl⟩
    | some s =>
      simp only [hs]
      by_cases hforce : flags.forceInit = true
      · rw [if_pos hforce]
        exact Or.inr ⟨_, _, hsame.contents, rfl⟩
      · rw [if_neg hforce]
        exact Or.inl hsame.contents

theorem Begun.grounded {l : Layout} {v readOnly : Bool} {s : Session} {d : Memory}
    (hs : s.Begun l readOnly ((Survey.take l v : StateM Memory _) d).1) :
    s.Grounded l v d.contents := by
  obtain ⟨calls, htaken, -⟩ := Survey.taken l v d
  refine ⟨hs.layout, ((htaken s.current).header?_eq_some hs.header).1, ?_⟩
  rw [hs.vars]
  exact Region.storable_readTolerant _

def blanked (l : Layout) (t : Slot) (c : Bytes) : Bytes :=
  Bytes.overwrite (Bytes.overwrite c (l.offset t) (Bytes.zeros blockSize)) (l.extensionOffset t)
    (Bytes.zeros l.extensionSize)

theorem written_blanking (l : Layout) (c : Bytes) :
    Memory.written c (blanking l) = blanked l .b (blanked l .a c) := rfl

theorem length_blanked (l : Layout) (t : Slot) (c : Bytes) :
    (blanked l t c).length = max c.length (l.offset t + l.copySize) := by
  rw [blanked, Bytes.length_overwrite, Bytes.length_overwrite, Bytes.length_zeros,
    Bytes.length_zeros, Layout.extensionOffset, Layout.copySize_eq]
  omega

theorem window_blanked_self (l : Layout) (t : Slot) (c : Bytes) :
    Bytes.window (blanked l t c) (l.offset t) l.copySize = Bytes.zeros l.copySize := by
  have hsize := l.copySize_eq
  apply Bytes.ext_getD (by simp)
  intro i hi
  rw [Bytes.length_window] at hi
  rw [Bytes.getD_window, if_pos hi, blanked, Bytes.getD_overwrite, Bytes.getD_overwrite]
  simp only [Bytes.getD_zeros, Bytes.length_zeros, Layout.extensionOffset]
  by_cases hblock : i < blockSize
  · rw [if_neg (by omega), if_pos (by omega)]
  · rw [if_pos (by omega)]

theorem window_blanked_other {l : Layout} (hl : l.Placed) (t : Slot) (c : Bytes) :
    Bytes.window (blanked l t c) (l.offset t.other) l.copySize =
      Bytes.window c (l.offset t.other) l.copySize := by
  have hsize := l.copySize_eq
  have hapart := hl.apart t
  rw [blanked, Bytes.window_overwrite_of_disjoint, Bytes.window_overwrite_of_disjoint]
  · rw [Bytes.length_zeros]
    omega
  · rw [Bytes.length_zeros, Layout.extensionOffset]
    omega

theorem window_blanking {l : Layout} (hl : l.Placed) (c : Bytes) (t : Slot) :
    l.offset t + l.copySize ≤ (Memory.written c (blanking l)).length ∧
      Bytes.window (Memory.written c (blanking l)) (l.offset t) l.copySize =
        Bytes.zeros l.copySize := by
  rw [written_blanking, length_blanked, length_blanked]
  cases t with
  | a =>
    refine ⟨by omega, ?_⟩
    exact (window_blanked_other hl .b (blanked l .a c)).trans (window_blanked_self l .a c)
  | b => exact ⟨by omega, window_blanked_self l .b (blanked l .a c)⟩

theorem blockOn_blanked {l : Layout} (hl : l.Placed) (c : Bytes) (t : Slot) :
    l.blockOn (Memory.written c (blanking l)) t = Bytes.zeros blockSize := by
  have hwhole := (window_blanking hl c t).2
  rw [Layout.copySize_eq, Bytes.window_append, Bytes.zeros,
    ← List.replicate_append_replicate] at hwhole
  exact (List.append_inj hwhole (by rw [Bytes.length_window, List.length_replicate])).1

theorem established_stored {l : Layout} (hl : l.Placed) {u : Update} {vs : Variables}
    (htarget : u.target = .a) (hu : u.Ready l (.fresh 0 0 1 l.sectors) vs) (v : Bool) (c : Bytes) :
    Stored l v (established l u c) .a u.header ∧
      l.blockOn (established l u c) .b = Bytes.zeros blockSize := by
  have hstored := (Update.stored_written hu false (Memory.written c (blanking l)) v).1
  rw [htarget] at hstored
  -- the first copy is written in slot A
  have hkeep : ∀ w ∈ u.writes l false, ∀ c o, l.blockOn c .b = Bytes.zeros blockSize →
      l.blockOn (WriteOutcome.leave o c w) .b = Bytes.zeros blockSize := by
    intro w hw c o hc
    have hother := Update.blockOn_leave_other hl hu hw c o
    rw [htarget] at hother
    exact hother.trans hc
  exact ⟨hstored, Memory.written_induction hkeep (blockOn_blanked hl c .b)⟩

/-- If no read fails, an opening that does not start anew begins on the copy that is found. It
changes nothing. -/
theorem openOn_found {settings : Settings} {l : Layout} (hl : settings.layout = .ok l)
    {flags : OpenFlags} (hforce : flags.forceInit = false) {d : Memory} (hreads : d.ReadsSucceed)
    {t : Slot} {h : Header} {copy : Bytes} (hd : d.Finds l settings.verifyHeader t h copy) :
    ∃ s, (openOn settings flags : StateM Memory _) d =
        (.ok s, ((Survey.take l settings.verifyHeader : StateM Memory _) d).2) ∧
      s.current = t ∧ s.header = h ∧
      s.vars = (Region.readTolerant (Copy.variableRegion l copy)).1 ∧
      (s.isDegraded = true ↔ (Region.readTolerant (Copy.variableRegion l copy)).2 ≠ none) ∧
      (s.mode = .writable ↔ flags.readOnly = false ∧ s.isDegraded = false) := by
  have hcheck : flags.check = .ok () := by
    simp only [OpenFlags.check, hforce, Bool.and_false, Bool.false_eq_true, if_false]
  obtain ⟨calls, htaken, -⟩ := Survey.taken l settings.verifyHeader d
  have hcurrent := (Memory.current?_take hreads).trans hd.current
  have hheader := (Memory.header?_take hreads t).trans hd.header
  have hstored := (d.survey_header?_eq_some_iff l settings.verifyHeader t h).1 hd.header
  have hbytes := ((htaken t).header?_eq_some hheader).2.1
  rw [← d.survey_bytes hstored, hd.bytes] at hbytes
  obtain ⟨s, hs, hslot, hh, hbegun⟩ := ofSurvey_of_current? l hcurrent hheader flags.readOnly
  have hvars := hbegun.vars
  have hdegraded := hbegun.degraded
  rw [hslot, hbytes] at hvars hdegraded
  refine ⟨s, ?_, hslot, hh, hvars, hdegraded, hbegun.writable⟩
  rw [openOn_eq_begin hl hcheck, begin_apply]
  simp only [hs, hforce, Bool.false_eq_true, if_false]

theorem openOn_of_finds {settings : Settings} {l : Layout} (hl : settings.layout = .ok l)
    {d : Memory} {t : Slot} {h : Header} {copy : Bytes}
    (hd : d.Finds l settings.verifyHeader t h copy) {vs : Variables}
    (hv : Region.readTolerant (Copy.variableRegion l copy) = (vs, none)) :
    ∃ s, ((openOn settings { readOnly := true } : StateM Memory _) (d.withPlan {})).1 = .ok s ∧
      s.isDegraded = false ∧ s.current = t ∧ s.header = h ∧ s.vars = vs := by
  have hreader : ({ readOnly := true } : OpenFlags).forceInit = false := rfl
  obtain ⟨s, hs, hcurrent, hheader, hvars, hdegraded, -⟩ :=
    openOn_found hl hreader (fun _ => rfl) (hd.withPlan {})
  rw [hv] at hvars hdegraded
  refine ⟨s, congrArg Prod.fst hs, ?_, hcurrent, hheader, hvars⟩
  rw [← Bool.not_eq_true, hdegraded]
  exact fun h => h rfl

theorem openOn_grounded {settings : Settings} {l : Layout} (hl : settings.layout = .ok l)
    {flags : OpenFlags} {d : Memory} {s : Session}
    (h : ((openOn settings flags : StateM Memory _) d).1 = .ok s) :
    s.Grounded l settings.verifyHeader
      ((openOn settings flags : StateM Memory _) d).2.contents := by
  obtain ⟨-, -, -, hsame⟩ := Survey.taken l settings.verifyHeader d
  rcases openOn_cases hl h with ⟨hbegun, hafter⟩ |
    ⟨vs, u, hvs, htarget, hready, rfl, -, hcontents⟩
  · rw [hafter, hsame.contents]
    exact hbegun.grounded
  · rw [hcontents]
    refine ⟨rfl, ?_, hvs⟩
    rw [ofFirstUpdate_current, htarget]
    exact (established_stored (Settings.placed hl) htarget hready settings.verifyHeader
      d.contents).1

end Session

end BootStore
