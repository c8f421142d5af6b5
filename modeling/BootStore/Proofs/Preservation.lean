import BootStore.Proofs.Opening

/-!
# Preservation

A store that begins anew keeps the variables whose names begin with an underscore, as long as they
leave room for their end mark (`forced_init_preserves`). A list that fills its region is lost.
-/
namespace BootStore

def Layout.preservedOn (l : Layout) (contents : Bytes) (t : Slot) : Variables :=
  (Region.readTolerant (Copy.variableRegion l
    (Bytes.slice contents (l.offset t) l.copySize))).1.preserved

/-- The variables that an initialization keeps, given which copy was current. -/
def Layout.keptOn (l : Layout) (contents : Bytes) (current : Option Slot) : Variables :=
  current.elim (.of []) (l.preservedOn contents)

variable {l : Layout} {v : Bool} {settings : Settings}

theorem Layout.preservedOn_front (hl : l.Placed) (ha : l.offset .a = 0) (h : Header)
    {region : Bytes} (hregion : region.length = l.variableSpace) :
    l.preservedOn (Copy.stamp h (Update.unstamped l region)).2 .a =
      (Region.readTolerant region).1.preserved := by
  have hlen : (Copy.stamp h (Update.unstamped l region)).2.length = l.copySize :=
    (Copy.length_stamp (Nat.le_trans (by decide) (Update.stampable_unstamped hl hregion))).trans
      (Update.length_unstamped hregion)
  rw [preservedOn, ha, Bytes.slice, List.drop_zero, List.take_of_length_le (Nat.le_of_eq hlen),
    Update.variableRegion_stamp_unstamped hl h hregion]

theorem Layout.storable_preservedOn (l : Layout) (c : Bytes) (t : Slot) :
    (l.preservedOn c t).Storable := (Region.storable_readTolerant _).preserved

theorem Layout.packedSize_preservedOn_le (l : Layout) (c : Bytes) (t : Slot) :
    (l.preservedOn c t).packedSize ≤ l.variableSpace := by
  refine Nat.le_trans (Variables.packedSize_preserved_le _) ?_
  refine Nat.le_trans (Region.packedSize_readTolerant_le _) ?_
  rw [Copy.variableRegion, Bytes.length_slice]
  exact Nat.min_le_left _ _

namespace Session

/-- A writer that finds no copy, or is told to start anew, establishes the store with what is
preserved of the copy that it finds. -/
theorem openOn_initializing (hl : settings.layout = .ok l) {flags : OpenFlags}
    (hwriter : flags.readOnly = false) {d : Memory}
    (hinit : flags.forceInit = true ∨
      ((Survey.take l settings.verifyHeader : StateM Memory _) d).1.current? = none) :
    (openOn settings flags : StateM Memory _) d =
      (establish l (l.keptOn d.contents
          ((Survey.take l settings.verifyHeader : StateM Memory _) d).1.current?) :
        StateM Memory _) ((Survey.take l settings.verifyHeader : StateM Memory _) d).2 := by
  have hcheck : flags.check = .ok () := by
    simp only [OpenFlags.check, hwriter, Bool.false_and, Bool.false_eq_true, if_false]
  rw [openOn_eq_begin hl hcheck, begin_apply]
  cases hcurrent : ((Survey.take l settings.verifyHeader : StateM Memory _) d).1.current? with
  | none =>
    simp only [ofSurvey_eq_none_iff.2 hcurrent, hwriter, Bool.false_eq_true, if_false]
    rfl
  | some t =>
    have hforce : flags.forceInit = true := by
      rcases hinit with hforce | hnone
      · exact hforce
      · rw [hnone] at hcurrent
        cases hcurrent
    obtain ⟨calls, htaken, -⟩ := Survey.taken l settings.verifyHeader d
    obtain ⟨h, hh, -⟩ := (Survey.current?_eq_some_iff _ t).1 hcurrent
    obtain ⟨s, hs, hslot, -, hbegun⟩ := ofSurvey_of_current? l hcurrent hh flags.readOnly
    have hvars : s.vars.preserved = l.preservedOn d.contents t := by
      rw [hbegun.vars, hslot, ((htaken t).header?_eq_some hh).2.1]
      rfl
    simp only [hs, hforce, if_true, hvars]
    rfl

theorem openOn_forced (hl : settings.layout = .ok l) {d : Memory} (hreads : d.ReadsSucceed)
    {t : Slot} (ht : (d.survey l settings.verifyHeader).current? = some t) :
    (openOn settings { forceInit := true } : StateM Memory _) d =
      (establish l (l.preservedOn d.contents t) : StateM Memory _)
        ((Survey.take l settings.verifyHeader : StateM Memory _) d).2 := by
  rw [openOn_initializing hl rfl (Or.inl rfl), Memory.current?_take hreads, ht]
  rfl

theorem since_establish (l : Layout) (v : Bool) (vs : Variables) (d : Memory) :
    let surveyed := ((Survey.take l v : StateM Memory _) d).2
    let after := ((establish l vs : StateM Memory _) surveyed).2
    ∃ reads, d.since after = reads ++ surveyed.since after ∧ ∀ w o, .write w o ∉ reads := by
  obtain ⟨calls, htaken, hlog, -⟩ := Survey.taken l v d
  obtain ⟨more, hmore, -⟩ := establish_log l vs ((Survey.take l v : StateM Memory _) d).2
  have hlast := Memory.since_of_log_eq hmore
  rw [hlog, List.append_assoc] at hmore
  refine ⟨calls .a ++ calls .b, ?_, Survey.write_notMem_calls htaken⟩
  rw [hlast]
  exact Memory.since_of_log_eq hmore

/-- If no write fails, establishing a store ends with its first copy or, if that one's variables
leave no room for their end mark, with two blank ones. -/
theorem establish_of_stored (hl : l.Placed) (vs : Variables) {d : Memory}
    (hstored : ∀ w o, .write w o ∈ d.since ((establish l vs : StateM Memory _) d).2 →
      o = .stored) :
    let out := (establish l vs : StateM Memory _) d
    (vs.packedSize < l.variableSpace ∧ ∃ s, out.1 = .ok s) ∨
    (l.variableSpace ≤ vs.packedSize ∧
      out.1 = .error (.indeterminate
        (.sizeExceeded (.region (vs.packedSize + 1) l.variableSpace))) ∧
      out.2.contents = Memory.written d.contents (blanking l)) := by
  rw [establish_device] at hstored
  rw [establish_apply]
  have hblanking : ∀ w ∈ blanking l, w.data ≠ [] := fun w => data_ne_nil_of_mem_blanking hl
  rcases Update.prepare_cases l .a (.fresh 0 0 1 l.sectors) vs with ⟨hroom, u, hu⟩ | ⟨hfull, hu⟩
  · have hu : firstUpdate l vs = .ok u := hu
    have hready := (firstUpdate_ready hl hu).2
    have hne : ∀ w ∈ blanking l ++ u.parts l, w.data ≠ [] := by
      intro w hw
      rcases List.mem_append.1 hw with hw | hw
      · exact hblanking w hw
      · exact (Update.within_of_mem_writes hl hready (show w ∈ u.writes l false from hw)).1
    simp only [establishing, hu] at hstored
    have hok := Memory.writeAll_ok_of_stored hne hstored
    rw [Memory.writeAll_append] at hok
    refine Or.inl ⟨hroom, ofFirstUpdate l vs u, ?_⟩
    cases hblank : ((BlockDevice.writeAll (blanking l) : StateM Memory _) d).1 with
    | error e =>
      simp only [hblank] at hok
      cases hok
    | ok =>
      simp only [hblank] at hok
      simp only [hblank, hu, hok]
  · have hu : firstUpdate l vs = _ := hu
    simp only [establishing, hu] at hstored
    rcases Memory.writeAll_cases (blanking l) hblanking d with ⟨hblank, hcontents, -⟩ |
      ⟨e, -, -, -, -, -, herr, -⟩
    · simp only [hblank, hu]
      exact Or.inr ⟨hfull, trivial, hcontents⟩
    · rw [Memory.writeAll_ok_of_stored hblanking hstored] at herr
      cases herr

theorem finds_established (hl : l.Placed) {vs : Variables} {u : Update} (htarget : u.target = .a)
    (hu : u.Ready l (.fresh 0 0 1 l.sectors) vs) {c : Bytes} {d : Memory}
    (hd : d.contents = established l u c) : d.Finds l v .a u.header u.image := by
  obtain ⟨hstored, hblank⟩ := established_stored hl htarget hu v c
  have hslice := (Update.stored_written hu false (Memory.written c (blanking l)) v).2
  have himage : Bytes.slice (established l u c) (l.offset u.target) l.copySize = u.image := hslice
  rw [htarget, ← hd] at himage
  rw [← hd] at hstored hblank
  rw [← himage]
  apply d.finds_of_stored hstored
  intro g hg
  exact absurd hg (Layout.headless_of_zeros hblank).not_stored

theorem current?_of_blanked (hl : l.Placed) {c : Bytes} {d : Memory}
    (hd : d.contents = Memory.written c (blanking l)) : (d.survey l v).current? = none := by
  apply Memory.current?_of_headless
  intro t
  rw [hd]
  exact Layout.headless_of_zeros (blockOn_blanked hl c t)

end Session

/-- A forced initialization that suffers no failing call. If the preserved variables leave room for
their end mark, the session and a fresh reader hold just these. If they fill their region, the
initialization fails, and neither copy is left. -/
theorem forced_init_preserves (hl : settings.layout = .ok l) {d : Memory}
    (hreads : d.ReadsSucceed) {t : Slot}
    (ht : (d.survey l settings.verifyHeader).current? = some t)
    (hstored : ∀ w o, .write w o ∈
      d.since ((Session.openOn settings { forceInit := true } : StateM Memory _) d).2 →
        o = .stored) :
    let kept := l.preservedOn d.contents t
    let out := (Session.openOn settings { forceInit := true } : StateM Memory _) d
    (kept.packedSize < l.variableSpace ∧
      ∃ s fresh, out.1 = .ok s ∧ s.vars = kept ∧
        ((Session.openOn settings { readOnly := true } : StateM Memory _)
          (out.2.withPlan {})).1 = .ok fresh ∧
        fresh.isDegraded = false ∧ fresh.vars = kept) ∨
    (kept.packedSize = l.variableSpace ∧
      out.1 = .error (.indeterminate
        (.sizeExceeded (.region (kept.packedSize + 1) l.variableSpace))) ∧
      (out.2.survey l settings.verifyHeader).current? = none) := by
  have hplaced := Settings.placed hl
  have hforced := Session.openOn_forced hl hreads ht
  rw [hforced] at hstored ⊢
  have hwrites : ∀ w o, .write w o ∈
      ((Survey.take l settings.verifyHeader : StateM Memory _) d).2.since
        ((Session.establish l (l.preservedOn d.contents t) : StateM Memory _)
          ((Survey.take l settings.verifyHeader : StateM Memory _) d).2).2 → o = .stored := by
    obtain ⟨reads, hsince, -⟩ := Session.since_establish l settings.verifyHeader
      (l.preservedOn d.contents t) d
    intro w o hx
    apply hstored w o
    rw [hsince]
    exact List.mem_append_right _ hx
  rcases Session.establish_of_stored hplaced _ hwrites with
    ⟨hroom, s, hs⟩ | ⟨hfull, herr, hcontents⟩
  · obtain ⟨u, hu, rfl, hcontents⟩ := Session.establish_ok hplaced hs
    obtain ⟨htarget, hready⟩ := Session.firstUpdate_ready hplaced hu
    have hfinds := Session.finds_established (v := settings.verifyHeader) hplaced htarget hready
      hcontents
    obtain ⟨fresh, hfresh, hwhole, -, -, hvars⟩ := Session.openOn_of_finds hl hfinds
      (hready.reads (l.storable_preservedOn d.contents t))
    exact Or.inl ⟨hroom, _, fresh, hs, rfl, hfresh, hwhole, hvars⟩
  · have hsize := l.packedSize_preservedOn_le d.contents t
    exact Or.inr ⟨Nat.le_antisymm hsize hfull, herr, Session.current?_of_blanked hplaced hcontents⟩

/-- The only variable of a store has an underscore for its name and fills the region. A forced
initialization fails and leaves no copy. -/
theorem forced_init_over_full_region :
    let l : Layout := ⟨1, 0, 1024⟩
    let settings : Settings := { sectors := 1 }
    let full : Variable := ⟨"_", String.ofList (List.replicate 997 'a')⟩
    let copy := (Copy.stamp (.fresh 0 0 1 1) (Update.unstamped l full.encode)).2
    let d : Memory := { contents := copy }
    (d.survey l false).current? = some .a ∧ l.preservedOn d.contents .a = .of [full] ∧
      ∃ e, ((Session.openOn settings { forceInit := true } : StateM Memory _) d).1 =
          .error (.indeterminate e) ∧
        (((Session.openOn settings { forceInit := true } : StateM Memory _) d).2.survey l
          false).current? = none := by
  intro l settings full copy d
  have hl : settings.layout = .ok l := eq_ok_of_toOption (by decide +kernel)
  have hplaced := Settings.placed hl
  have hlength : full.encode.length = l.variableSpace := by decide +kernel
  have hfull : full.Storable := by decide +kernel
  have hkept : l.preservedOn d.contents .a = .of [full] := by
    rw [Layout.preservedOn_front hplaced rfl _ hlength, Region.readTolerant_single hfull]
    apply Variables.ext_entries
    rw [Variables.preserved, Variables.entries_of, Variables.entries_of, List.filter_eq_self]
    intro v hv
    rw [List.mem_singleton.1 hv]
    decide +kernel
  have hcurrent : (d.survey l false).current? = some .a :=
    (Memory.finds_front hplaced rfl (UInt16.le_refl _) rfl (Update.length_unstamped hlength)
      rfl).current
  have hcalls : ((d.since ((Session.establish l (.of [full]) : StateM Memory _)
      ((Survey.take l false : StateM Memory _) d).2).2).all
        fun x => x.outcome?.all (· == .stored)) = true := by
    decide +kernel
  have hwrites : ∀ w o, .write w o ∈
      d.since ((Session.openOn settings { forceInit := true } : StateM Memory _) d).2 →
        o = .stored := by
    intro w o hx
    rw [Session.openOn_forced hl (fun _ => rfl) hcurrent, hkept] at hx
    exact eq_of_beq (List.all_eq_true.1 hcalls _ hx)
  refine ⟨hcurrent, hkept, ?_⟩
  rcases forced_init_preserves hl (fun _ => rfl) hcurrent hwrites with ⟨hroom, -⟩ | ⟨-, herr, hnone⟩
  · rw [hkept] at hroom
    exact absurd hroom (by decide +kernel)
  · exact ⟨_, herr, hnone⟩

end BootStore
