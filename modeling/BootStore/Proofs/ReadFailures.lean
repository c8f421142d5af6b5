import BootStore.Proofs.CrashIsolation

/-!
# Failing reads at opening

A survey takes a copy that could not be read for one that is not there. So a writer blanks a store
whose every copy failed to be read (`established_iff_unread`), and the first commit beside an unread
header block does not clear it (`torn_over_unread_block`).
-/
namespace BootStore

variable {l : Layout} {v : Bool}

def Layout.ReadFailed (l : Layout) (calls : List Access) (s : Slot) : Prop :=
  .read (l.offset s) blockSize false ∈ calls ∨
    .read (l.extensionOffset s) l.extensionSize false ∈ calls

namespace Survey

variable {c : Bytes} {calm mute : Prop} {calls : Slot → List Access}

theorem readFailed_iff (hl : l.Placed) {σ : Slot → Sighting}
    (ht : ∀ s, Sighting.Taken l v c calm mute s (σ s) (calls s)) (s : Slot) :
    l.ReadFailed (calls .a ++ calls .b) s ↔ l.ReadFailed (calls s) s := by
  rw [Layout.ReadFailed, Layout.ReadFailed, mem_calls_iff hl ht ⟨false, Or.inl rfl⟩,
    mem_calls_iff hl ht ⟨false, Or.inr rfl⟩]

/-- A survey finds no copy if and only if a read failed on every copy that is stored. -/
theorem current?_eq_none_iff (hl : l.Placed) {survey : Survey} {d : Memory}
    (ht : ∀ s, Sighting.Taken l v d.contents calm mute s (survey.sighting s) (calls s)) :
    survey.current? = none ↔ ∀ s, ((d.survey l v).sighting s).header? ≠ none →
      l.ReadFailed (calls .a ++ calls .b) s := by
  constructor
  · intro hnone s hs
    rw [readFailed_iff hl ht]
    obtain ⟨h, hh⟩ := Option.ne_none_iff_exists'.1 hs
    have hstored := (d.survey_header?_eq_some_iff l v s h).1 hh
    by_cases hread : l.ReadFailed (calls s) s
    · exact hread
    have hfound := (ht s).header?_of_stored hstored
      ⟨fun hx => hread (Or.inl hx), fun hx => hread (Or.inr hx)⟩
    refine absurd hnone (survey.current?_isSome_iff.2 ⟨s, ?_⟩)
    rw [hfound]
    exact Option.some_ne_none h
  · intro hread
    by_cases hsome : survey.current? = none
    · exact hsome
    obtain ⟨s, hs⟩ := survey.current?_isSome_iff.1 hsome
    obtain ⟨h, hh⟩ := Option.ne_none_iff_exists'.1 hs
    obtain ⟨hstored, -, hok⟩ := (ht s).header?_eq_some hh
    have hthere : ((d.survey l v).sighting s).header? ≠ none := by
      rw [(d.survey_header?_eq_some_iff l v s h).2 hstored]
      exact Option.some_ne_none h
    rcases (readFailed_iff hl ht s).1 (hread s hthere) with hx | hx
    · exact absurd hx (hok _ _)
    · exact absurd hx (hok _ _)

end Survey

/-- Opening for writing, without being told to initialize, writes to the device if and only if a
read failed on every copy that the device holds. If it writes nothing it gives a session. -/
theorem established_iff_unread {settings : Settings} (hl : settings.layout = .ok l) (d : Memory) :
    let out := (Session.openOn settings {} : StateM Memory _) d
    let calls := d.since out.2
    ((∃ w o, .write w o ∈ calls) ↔
      ∀ s, ((d.survey l settings.verifyHeader).sighting s).header? ≠ none →
        l.ReadFailed calls s) ∧
    ((∀ w o, .write w o ∉ calls) → out.2.contents = d.contents ∧ ∃ s, out.1 = .ok s) := by
  have hplaced := Settings.placed hl
  obtain ⟨calls, htaken, hlog, hsame⟩ := Survey.taken l settings.verifyHeader d
  have hiff := Survey.current?_eq_none_iff hplaced htaken
  rw [Session.openOn_eq_begin hl rfl, Session.begin_apply]
  cases hbegin : Session.ofSurvey l false
      ((Survey.take l settings.verifyHeader : StateM Memory _) d).1 with
  | none =>
    have hnone := Session.ofSurvey_eq_none_iff.1 hbegin
    obtain ⟨more, hmore, w, o, hwrite⟩ := Session.establish_log l {}
      ((Survey.take l settings.verifyHeader : StateM Memory _) d).2
    have hsince : d.since ((Session.establish l {} : StateM Memory _)
        ((Survey.take l settings.verifyHeader : StateM Memory _) d).2).2 =
        calls .a ++ calls .b ++ more := by
      apply Memory.since_of_log_eq
      rw [hmore, hlog, List.append_assoc]
    simp only [hbegin, Bool.false_eq_true, if_false, hsince]
    have hmem : .write w o ∈ calls .a ++ calls .b ++ more := List.mem_append_right _ hwrite
    refine ⟨⟨fun _ s hs => ?_, fun _ => ⟨w, o, hmem⟩⟩, fun hno => absurd hmem (hno w o)⟩
    rcases hiff.1 hnone s hs with hx | hx
    · exact Or.inl (List.mem_append_left _ hx)
    · exact Or.inr (List.mem_append_left _ hx)
  | some s =>
    have hsince : d.since ((Survey.take l settings.verifyHeader : StateM Memory _) d).2 =
        calls .a ++ calls .b := Memory.since_of_log_eq hlog
    simp only [hbegin, Bool.false_eq_true, if_false, hsince]
    refine ⟨⟨?_, ?_⟩, fun _ => ⟨hsame.contents, s, rfl⟩⟩
    · rintro ⟨w, o, hx⟩
      exact absurd hx (Survey.write_notMem_calls htaken w o)
    · intro hread
      have hnone : Session.ofSurvey l false
          ((Survey.take l settings.verifyHeader : StateM Memory _) d).1 = none :=
        Session.ofSurvey_eq_none_iff.2 (hiff.2 hread)
      rw [hbegin] at hnone
      cases hnone

theorem stored_stamp (hl : l.Placed) (ha : l.offset .a = 0) {h : Header}
    (hv : Header.formatVersion ≤ h.version) (hs : h.sectors = l.sectors) (rest : Bytes) :
    Stored l v ((Copy.stamp h (Bytes.zeros l.copySize)).2 ++ rest) .a
      (Copy.stamp h (Bytes.zeros l.copySize)).1 :=
  Stored.front hl ha hv hs (Bytes.length_zeros _) rest

/-- The only copy of a store is not read, and the store begins anew. -/
theorem established_over_unread :
    let l : Layout := ⟨1, 0, 1024⟩
    let copy := (Copy.stamp (.fresh 0 0 10 1) (Bytes.zeros l.copySize)).2
    let d : Memory :=
      { contents := copy ++ Bytes.zeros 1024, plan := { readFails := fun n => n == 0 } }
    (d.survey l false).a.header?.map (·.serial) = some 10 ∧
      ∃ w o, .write w o ∈ d.since ((Session.openOn { sectors := 1 } {} : StateM Memory _) d).2 := by
  intro l copy d
  have hl : ({ sectors := 1 } : Settings).layout = .ok l := eq_ok_of_toOption (by decide +kernel)
  have hplaced : l.Placed := Settings.placed hl
  have hstored : Stored l false d.contents .a
      (Copy.stamp (.fresh 0 0 10 1) (Bytes.zeros l.copySize)).1 :=
    stored_stamp hplaced rfl (UInt16.le_refl _) rfl (Bytes.zeros 1024)
  have hfound : (d.survey l false).a.header? = _ :=
    (d.survey_header?_eq_some_iff l false .a _).2 hstored
  refine ⟨?_, ?_⟩
  · rw [hfound]
    rfl
  · apply (established_iff_unread hl d).1.2
    intro s hs
    cases s with
    | a =>
      left
      decide +kernel
    | b =>
      have hnone : (d.survey l false).b.header? = none := by decide +kernel
      exact absurd hnone hs

/-- The header block in the slot, put before a good extension, makes a copy that is accepted and
wins against a sibling with this serial. -/
def Layout.Exposed (l : Layout) (v : Bool) (contents : Bytes) (t : Slot) (serial : UInt8) : Prop :=
  ∃ g, Copy.headerFor l (l.blockOn contents t) = .ok g ∧
    (v = true → Copy.headerIntact (l.blockOn contents t) = true) ∧
    t.other.losesTo serial g.serial = true

theorem Reached.silent (hl : l.Placed) {s₀ s : Session} {d₀ d : Memory}
    (h₀ : s₀.Grounded l v d₀.contents) (hr : Reached (fun _ => False) s₀ d₀ s d) :
    s.Grounded l v d₀.contents ∧ s.current = s₀.current ∧ s.header = s₀.header ∧
      s.rival = s₀.rival ∧ d.contents = d₀.contents := by
  induction hr with
  | start => exact ⟨h₀, rfl, rfl, rfl, rfl⟩
  | @call s d op _ hcalls ih =>
    obtain ⟨hs, hcurrent, hheader, hrival, hcontents⟩ := ih
    rw [← hcontents] at hs ⊢
    have hnext := op.grounded_run hl hs
    rcases op.run_cases hl hs with ⟨hd, vs, hout, -⟩ | ⟨h, u, -, -, hready, hd, -⟩
    · rw [hd, hout] at hnext ⊢
      exact ⟨hnext, hcurrent, hheader, hrival, rfl⟩
    · -- an update begins with a write
      exfalso
      rw [hd] at hcalls
      obtain ⟨calls, hlog, hsome⟩ := Memory.writeAll_log (u.writes l s.rivalOutranks) d
      rw [Memory.since_of_log_eq hlog] at hcalls
      obtain ⟨w, o, hmem⟩ := hsome (by
        rw [Update.writes_eq]
        simp)
      exact hcalls _ hmem

namespace Session

theorem rival_of_unread {settings : Settings} (hl : settings.layout = .ok l) {flags : OpenFlags}
    {d : Memory} (hmute : d.BringsNothing) {s : Session}
    (h : ((openOn settings flags : StateM Memory _) d).1 = .ok s)
    (hunread : .read (l.offset s.current.other) blockSize false ∈
      d.since ((openOn settings flags : StateM Memory _) d).2) : s.rival = none := by
  obtain ⟨calls, htaken, hlog, -⟩ := Survey.taken l settings.verifyHeader d
  rcases openOn_cases hl h with ⟨hbegun, hafter⟩ | ⟨vs, u, -, -, -, rfl, -⟩
  · rw [hafter, Memory.since_of_log_eq hlog] at hunread
    have hmem := (Survey.mem_calls_iff (Settings.placed hl) htaken ⟨false, Or.inl rfl⟩).1 hunread
    obtain ⟨f, hblank, hf⟩ := (htaken s.current.other).eq_ofBlockFailure hmem
    rw [hbegun.rival, hblank]
    exact Sighting.Taken.apparentHeader?_blockFailed (hf.nothing hmute)
  · rfl

end Session

/-- The first commit of a session that could not read the other slot's header block, cut off after
its first write. If nothing of the block had arrived, the session does not clear it. Then the other
slot becomes current if the block that stands there wins, and in all other cases the session's copy
stays current. -/
theorem torn_over_unread_block {settings : Settings} (hl : settings.layout = .ok l)
    {flags : OpenFlags} {d₀ : Memory} {s₀ : Session}
    (hopen : ((Session.openOn settings flags : StateM Memory _) d₀).1 = .ok s₀)
    (hunread : .read (l.offset s₀.current.other) blockSize false ∈
      d₀.since ((Session.openOn settings flags : StateM Memory _) d₀).2)
    {s : Session} {d : Memory}
    (hr : Reached (fun _ => False) s₀ ((Session.openOn settings flags : StateM Memory _) d₀).2 s d)
    (op : Operation) {e : Memory} (he : e.contents = d.contents) {o : WriteOutcome}
    (hcut : (e.since ((op.run s : StateM Memory _) e).2).map Access.outcome? =
      [some .stored, some o]) (ho : o.storesAny = false) :
    let after := ((op.run s : StateM Memory _) e).2
    let exposed := s.rivalOutranks = false ∧
      l.Exposed settings.verifyHeader d.contents s.current.other s.header.serial
    (d₀.BringsNothing → s.rivalOutranks = false) ∧
    (exposed → (after.survey l settings.verifyHeader).current? = some s.current.other) ∧
    (¬ exposed → after.Finds l settings.verifyHeader s.current s.header
      (Bytes.slice d.contents (l.offset s.current) l.copySize)) := by
  have hplaced := Settings.placed hl
  obtain ⟨hs, hcurrent, hheader, hrival, hcontents⟩ :=
    hr.silent hplaced (Session.openOn_grounded hl hopen)
  rw [← hcontents, ← he] at hs
  dsimp only
  rw [← he]
  refine ⟨?_, ?_⟩
  · intro hmute
    rw [Session.rivalOutranks, hrival, Session.rival_of_unread hl hmute hopen hunread]
  rcases op.run_cases hplaced hs with ⟨hd, -⟩ | ⟨h, u, -, htarget, hready, hd, -⟩
  · rw [hd, Memory.since_self] at hcut
    cases hcut
  rw [hd] at hcut ⊢
  obtain ⟨hkept, hslice⟩ := hs.stored_writeAll hplaced htarget hready s.rivalOutranks
  cases hclear : s.rivalOutranks with
  | true =>
    refine ⟨fun hexposed => absurd hexposed.1 (by decide), fun _ => ?_⟩
    rw [hclear] at hcut hkept hslice
    rw [← hslice]
    apply Memory.finds_of_stored _ hkept
    intro g hg
    rw [← htarget] at hg
    exact absurd hg (Update.headless_of_cut hplaced hready hcut).not_stored
  | false =>
    rw [hclear] at hcut hkept hslice
    have hleft := Update.contents_of_cut hplaced hready hcut ho
    have hmade := fun g =>
      Update.stored_extension_iff (v := settings.verifyHeader) hready e.contents g
    rw [← hleft, htarget] at hmade
    constructor
    · rintro ⟨-, g, hg, hintact, hwins⟩
      rw [Slot.other_other] at hwins
      refine (Survey.current?_eq_some_iff _ _).2
        ⟨g, (Memory.survey_header?_eq_some_iff _ l _ _ g).2 ((hmade g).2 ⟨hg, hintact⟩), ?_⟩
      intro g' hg'
      rw [Slot.other_other, Memory.survey_header?_eq_some_iff] at hg'
      rw [hg'.unique hkept, Slot.losesTo_other, hwins]
      rfl
    · intro hsafe
      rw [← hslice]
      apply Memory.finds_of_stored _ hkept
      intro g hg
      obtain ⟨hblock, hintact⟩ := (hmade g).1 hg
      cases hwins : s.current.losesTo s.header.serial g.serial with
      | false => rfl
      | true =>
        refine absurd ⟨rfl, g, hblock, hintact, ?_⟩ hsafe
        rw [Slot.other_other]
        exact hwins

theorem Session.openOn_of_unread {settings : Settings} (hl : settings.layout = .ok l) {d : Memory}
    (hmute : d.BringsNothing) {t : Slot} {h : Header}
    (hs : Stored l settings.verifyHeader d.contents t h) {vs : Variables}
    (hvars : Region.readTolerant (Copy.variableRegion l
      (Bytes.slice d.contents (l.offset t) l.copySize)) = (vs, none))
    (hread : ¬ l.ReadFailed
      (d.since ((Survey.take l settings.verifyHeader : StateM Memory _) d).2) t)
    (hunread : .read (l.offset t.other) blockSize false ∈
      d.since ((Survey.take l settings.verifyHeader : StateM Memory _) d).2) :
    (openOn settings {} : StateM Memory _) d =
      (.ok ⟨l, t, h, vs, none, .writable⟩,
        ((Survey.take l settings.verifyHeader : StateM Memory _) d).2) := by
  have hplaced := Settings.placed hl
  obtain ⟨calls, htaken, hlog, -⟩ := Survey.taken l settings.verifyHeader d
  rw [Memory.since_of_log_eq hlog] at hread hunread
  rw [Survey.readFailed_iff hplaced htaken] at hread
  rw [Survey.mem_calls_iff hplaced htaken ⟨false, Or.inl rfl⟩] at hunread
  have hfound := (htaken t).header?_of_stored hs
    ⟨fun hx => hread (Or.inl hx), fun hx => hread (Or.inr hx)⟩
  obtain ⟨-, hbytes, -⟩ := (htaken t).header?_eq_some hfound
  obtain ⟨f, hlost, hf⟩ := (htaken t.other).eq_ofBlockFailure hunread
  have hcurrent : ((Survey.take l settings.verifyHeader : StateM Memory _) d).1.current? =
      some t := by
    refine (Survey.current?_eq_some_iff _ t).2 ⟨h, hfound, ?_⟩
    intro g hg
    rw [hlost] at hg
    cases hg
  obtain ⟨s, hsurvey, hslot, hheader, hbegun⟩ := ofSurvey_of_current? l hcurrent hfound false
  have hsession : s = ⟨l, t, h, vs, none, .writable⟩ := by
    have hv := hbegun.vars
    have hrival := hbegun.rival
    have hdegraded := hbegun.degraded
    rw [hslot, hbytes, hvars] at hv hdegraded
    rw [hslot, hlost, Sighting.Taken.apparentHeader?_blockFailed (hf.nothing hmute)] at hrival
    have hmode := hbegun.writable.2 ⟨rfl, by simpa using hdegraded⟩
    have hlayout := hbegun.layout
    cases s
    simp only at hslot hheader hv hrival hmode hlayout
    rw [hslot, hheader, hv, hrival, hmode, hlayout]
  rw [openOn_eq_begin hl rfl, begin_apply]
  simp only [hsurvey, ← hsession]
  rfl

/-- Copy A with serial 10 is current, and before a missing extension stands a header block of copy B
with serial 11 that is not read. The commit that is cut off makes copy B current. -/
theorem torn_over_newer_block :
    let l : Layout := ⟨1, 0, 1024⟩
    let settings : Settings := { sectors := 1 }
    let copy := (Copy.stamp (.fresh 0 0 10 1) (Bytes.zeros l.copySize)).2
    let block := (Header.fresh 0 0 11 1).encode ++ Bytes.zeros (blockSize - headerSize)
    let d₀ : Memory :=
      { contents := copy ++ block
        plan := { readFails := fun n => n == 2
                  writeTears := fun n => if n = 1 then some 0 else none } }
    ∃ s d, (Session.openOn settings {} : StateM Memory _) d₀ = (.ok s, d) ∧
      s.isDegraded = false ∧ (d₀.survey l false).current? = some s.current ∧
      (((Operation.commit.run s : StateM Memory _) d).2.survey l false).current? =
        some s.current.other := by
  intro l settings copy block d₀
  have hl : settings.layout = .ok l := eq_ok_of_toOption (by decide +kernel)
  have hlong : blockSize + checksumSize ≤ (Bytes.zeros l.copySize).length := by decide +kernel
  have hlen : copy.length = l.copySize :=
    (Copy.length_stamp (Nat.le_trans (by decide) hlong)).trans (Bytes.length_zeros _)
  have hstored : Stored l false d₀.contents .a
      (Copy.stamp (.fresh 0 0 10 1) (Bytes.zeros l.copySize)).1 :=
    stored_stamp (Settings.placed hl) rfl (UInt16.le_refl _) rfl block
  -- copy B is not there: the device ends before its extension
  have hcurrent : (d₀.survey l false).current? = some .a := by
    have hend : d₀.contents.length = 1536 := by
      show (copy ++ block).length = 1536
      rw [List.length_append, hlen]
      decide +kernel
    refine (d₀.finds_of_stored hstored ?_).current
    intro g hg
    have hfits := hg.fits
    rw [hend] at hfits
    exact absurd hfits (by decide +kernel)
  have hvars : Region.readTolerant (Copy.variableRegion l
      (Bytes.slice d₀.contents (l.offset .a) l.copySize)) = ({}, none) := by
    have hslice : Bytes.slice d₀.contents (l.offset .a) l.copySize = copy := by
      show ((copy ++ block).drop 0).take l.copySize = copy
      rw [List.drop_zero, List.take_left' hlen]
    rw [hslice, Copy.variableRegion_stamp _ hlong (Bytes.length_zeros _)]
    decide +kernel
  let s : Session :=
    ⟨l, .a, (Copy.stamp (.fresh 0 0 10 1) (Bytes.zeros l.copySize)).1, {}, none, .writable⟩
  let d := ((Survey.take l false : StateM Memory _) d₀).2
  have hreads : d₀.since d =
      [.read 0 512 true, .read 512 512 true, .read 1024 512 false] := by decide +kernel
  have hread : ¬ l.ReadFailed (d₀.since d) .a := by
    rw [hreads]
    rintro (hx | hx)
    · exact absurd hx (by decide +kernel)
    · exact absurd hx (by decide +kernel)
  have hunread : .read (l.offset .b) blockSize false ∈ d₀.since d := by
    rw [hreads]
    decide +kernel
  have hmute : d₀.BringsNothing := ⟨rfl, fun _ => rfl⟩
  have hopen : (Session.openOn settings {} : StateM Memory _) d₀ = (.ok s, d) :=
    Session.openOn_of_unread hl hmute hstored hvars hread hunread
  have hcut : (d.since ((Operation.commit.run s : StateM Memory _) d).2).map Access.outcome? =
      [some .stored, some (.torn 0)] := by decide +kernel
  have hexposed : l.Exposed false d.contents s.current.other s.header.serial := by
    refine ⟨.fresh 0 0 11 1, ?_, nofun, ?_⟩
    · exact eq_ok_of_toOption (by decide +kernel)
    · decide +kernel
  have hok : ((Session.openOn settings {} : StateM Memory _) d₀).1 = .ok s := by
    rw [hopen]
  have hafter : ((Session.openOn settings {} : StateM Memory _) d₀).2 = d := by
    rw [hopen]
  rw [← hafter] at hunread
  refine ⟨s, d, hopen, rfl, hcurrent, ?_⟩
  obtain ⟨hclear, hswitched, -⟩ :=
    torn_over_unread_block hl hok hunread (hafter ▸ .start) .commit rfl hcut rfl
  exact hswitched ⟨hclear hmute, hexposed⟩

end BootStore
