import BootStore.Proofs.Blanking
import BootStore.Proofs.Initialization

/-!
# Interrupted initialization

What is left when a write of an initialization fails (`interrupted_initialization`). Blanking copy A
can make a device grow over a copy B that lies below it and was cut off by the end of the device;
that copy may then be whole.
-/
namespace BootStore

variable {l : Layout} {v : Bool} {settings : Settings}

namespace Session

theorem establish_of_fits (hl : l.Placed) {vs : Variables} (hroom : vs.packedSize < l.variableSpace)
    {d : Memory} (hplan : ∀ n, d.plan.writeTears n = none)
    (hfits : ∀ w ∈ blanking l, w.offset + w.data.length ≤ d.limit) :
    ∃ u, firstUpdate l vs = .ok u ∧
      ((establish l vs : StateM Memory _) d).1 = .ok (ofFirstUpdate l vs u) := by
  rcases Update.prepare_cases l .a (.fresh 0 0 1 l.sectors) vs with ⟨-, u, hu⟩ | ⟨hfull, -⟩
  · have hu : firstUpdate l vs = .ok u := hu
    obtain ⟨htarget, hready⟩ := firstUpdate_ready hl hu
    obtain ⟨hlimit, hkept⟩ := Memory.writeAll_keeps (blanking l) d
    have hblank := Memory.writeAll_ok_of_fits hplan hfits
    have hend : l.extensionOffset .a + l.extensionSize ≤ d.limit := by
      have hlast := hfits ⟨l.extensionOffset .a, Bytes.zeros l.extensionSize⟩
        (List.mem_cons_of_mem _ List.mem_cons_self)
      rwa [Bytes.length_zeros] at hlast
    have hparts : ∀ w ∈ u.writes l false, w.offset + w.data.length ≤
        ((BlockDevice.writeAll (blanking l) : StateM Memory _) d).2.limit := by
      intro w hw
      have hwithin := (Update.within_of_mem_writes hl hready hw).2.2
      rw [htarget, Layout.copySize_eq, ← Nat.add_assoc] at hwithin
      rw [hlimit]
      exact Nat.le_trans hwithin hend
    have hwritten := Memory.writeAll_ok_of_fits (by rw [hkept]; exact hplan) hparts
    refine ⟨u, hu, ?_⟩
    rw [establish_apply]
    simp only [hblank, hu]
    rw [show u.parts l = u.writes l false from rfl, hwritten]
  · omega

theorem headless_of_error (hl : l.Placed) {vs : Variables} {u : Update} (htarget : u.target = .a)
    (hu : u.Ready l (.fresh 0 0 1 l.sectors) vs) {d : Memory}
    (hblank : ∀ t, l.blockOn d.contents t = Bytes.zeros blockSize) {e : IoError}
    (herr : ((BlockDevice.writeAll (u.writes l false) : StateM Memory _) d).1 = .error e)
    (hcalls : ∀ x ∈ d.since ((BlockDevice.writeAll (u.writes l false) : StateM Memory _) d).2,
      x.headerWhole l = true) (t : Slot) :
    l.Headless ((BlockDevice.writeAll (u.writes l false) : StateM Memory _) d).2.contents t := by
  have hlands := Update.landsHeader_of_error hl hu herr hcalls
  obtain ⟨-, hleft⟩ := Update.headless_writeAll hl hu hlands
  have hother := Update.blockOn_writeAll_other hl hu false d
  rw [htarget] at hleft hother
  cases t with
  | a =>
    rcases hleft with hsame | ⟨-, hblock⟩ | hnone
    · rw [hsame]
      exact Layout.headless_of_zeros (hblank .a)
    · exact Layout.headless_of_zeros (hblock.trans (hblank .a))
    · exact hnone
  | b => exact Layout.headless_of_zeros (hother.trans (hblank .b))

/-- How establishing a store fails: in a blanking write, or with both copies blank and without a
header that has landed since. -/
theorem establish_error (hl : l.Placed) {vs : Variables} {d : Memory} {err : StoreError}
    (herr : ((establish l vs : StateM Memory _) d).1 = .error err)
    (hcalls : ∀ x ∈ d.since ((establish l vs : StateM Memory _) d).2, x.headerWhole l = true) :
    let after := ((establish l vs : StateM Memory _) d).2
    (∃ e done w rest o, err = .io e ∧ o ≠ .stored ∧ blanking l = done ++ w :: rest ∧
      d.since after = done.map Write.whole ++ [.write w o] ∧
      after = ((BlockDevice.writeAll (blanking l) : StateM Memory _) d).2) ∨
    ∃ e calls, err = .indeterminate e ∧
      d.since after = (blanking l).map Write.whole ++ calls ∧
      (∀ w ∈ blanking l, w.offset + w.data.length ≤ after.limit) ∧
      ∀ t, l.Headless after.contents t := by
  rw [establish_apply] at herr hcalls ⊢
  obtain ⟨hlimit, -⟩ := Memory.writeAll_keeps (blanking l) d
  rcases Memory.writeAll_cases (blanking l) (fun w => data_ne_nil_of_mem_blanking hl) d with
    ⟨hok, hcontents, hlog⟩ | ⟨e, done, w, rest, o, hws, hfail, ho, -, hlog⟩
  · right
    have hfits := Memory.writeAll_fits hok
    have hblank : ∀ t, l.blockOn ((BlockDevice.writeAll (blanking l) : StateM Memory _)
        d).2.contents t = Bytes.zeros blockSize := by
      rw [hcontents]
      exact blockOn_blanked hl d.contents
    cases hu : firstUpdate l vs with
    | error e =>
      simp only [hok, hu] at herr hcalls ⊢
      refine ⟨e, [], (Except.error.inj herr).symm, ?_, ?_, ?_⟩
      · rw [Memory.since_of_log_eq hlog, List.append_nil]
      · rw [hlimit]
        exact hfits
      · exact fun t => Layout.headless_of_zeros (hblank t)
    | ok u =>
      obtain ⟨htarget, hready⟩ := firstUpdate_ready hl hu
      simp only [hok, hu] at herr hcalls ⊢
      cases hparts : ((BlockDevice.writeAll (u.parts l) : StateM Memory _)
          ((BlockDevice.writeAll (blanking l) : StateM Memory _) d).2).1 with
      | ok =>
        simp only [hparts] at herr
        cases herr
      | error e =>
        simp only [hparts] at herr hcalls ⊢
        obtain ⟨calls, hmore, -⟩ := Memory.writeAll_log (u.parts l)
          ((BlockDevice.writeAll (blanking l) : StateM Memory _) d).2
        have hlast := Memory.since_of_log_eq hmore
        rw [hlog, List.append_assoc] at hmore
        have hall := Memory.since_of_log_eq hmore
        refine ⟨.io e, calls, (Except.error.inj herr).symm, hall, ?_, ?_⟩
        · rw [(Memory.writeAll_keeps _ _).1, hlimit]
          exact hfits
        · refine headless_of_error hl htarget hready hblank hparts fun x hx => hcalls x ?_
          rw [hall]
          exact List.mem_append_right _ (hlast ▸ hx)
  · left
    simp only [hfail] at herr ⊢
    exact ⟨e, done, w, rest, o, (Except.error.inj herr).symm, ho, hws,
      Memory.since_of_log_eq hlog, trivial⟩

theorem filterMap_write?_reads {calls : List Access} (h : ∀ w o, .write w o ∉ calls) :
    calls.filterMap Access.write? = [] := by
  rw [List.filterMap_eq_nil_iff]
  intro x hx
  cases x with
  | read => rfl
  | write w o => exact absurd hx (h w o)

theorem filterMap_write?_whole (ws : List Write) :
    (ws.map Write.whole).filterMap Access.write? = ws.map fun w => (w, .stored) := by
  rw [List.filterMap_map]
  exact congrFun List.filterMap_eq_map ws

theorem first_of_cut {done rest : List Write} {w : Write}
    (hws : blanking l = done ++ w :: rest) (o : WriteOutcome) :
    ((done.map Write.whole ++ [Access.write w o]).filterMap Access.write?).take 4 =
      done.map (fun w => (w, .stored)) ++ [(w, o)] := by
  have hfour : (done ++ w :: rest).length = 4 := by
    rw [← hws]
    rfl
  rw [List.length_append, List.length_cons] at hfour
  rw [List.filterMap_append, filterMap_write?_whole]
  apply List.take_of_length_le
  simp only [List.length_append, List.length_map, List.filterMap_cons, List.filterMap_nil,
    Access.write?, List.length_singleton]
  omega

theorem first_of_blanked (l : Layout) (calls : List Access) :
    (((blanking l).map Write.whole ++ calls).filterMap Access.write?).take 4 =
      (blanking l).map fun w => (w, .stored) := by
  rw [List.filterMap_append, filterMap_write?_whole]
  exact List.take_left' (List.length_map _)

/-- Of the copies that are accepted after blanking was cut off, each has the bytes that stood there
before. It was accepted then too, but for a copy B that the device did not hold in full and that
lies below copy A. -/
theorem stored_of_blanking (hl : l.Placed) (d : Memory) {t : Slot} {h : Header}
    (hs : Stored l v ((BlockDevice.writeAll (blanking l) : StateM Memory _) d).2.contents t h) :
    Bytes.slice ((BlockDevice.writeAll (blanking l) : StateM Memory _) d).2.contents (l.offset t)
        l.copySize = Bytes.window d.contents (l.offset t) l.copySize ∧
      (Stored l v d.contents t h ∨
        t = .b ∧ l.offset .b < l.offset .a ∧ l.offset .b < d.contents.length ∧
          d.contents.length < l.offset .b + l.copySize) := by
  rw [Bytes.slice_eq_window hs.fits]
  cases t with
  | a =>
    rcases headless_blanking hl d with hsame | hnone
    · rw [hsame] at hs ⊢
      exact ⟨rfl, Or.inl hs⟩
    · exact absurd hs hnone.not_stored
  | b =>
    have hleft := window_or_headless_blanking hl [] (fun w hw => absurd hw List.not_mem_nil) d
    rw [List.append_nil] at hleft
    rcases hleft with ⟨hlen, hwindow⟩ | hnone
    · refine ⟨hwindow, ?_⟩
      by_cases hfits : l.offset .b + l.copySize ≤ d.contents.length
      · exact Or.inl (hs.of_window_eq hfits hwindow.symm)
      · have hgrown := hs.fits
        have hsector := hl.sectorSize_le
        have hsize := l.copySize_eq
        have hapart := hl.apart .a
        simp only [Slot.other, sectorSize] at hapart hsector
        by_cases hbegun : l.offset .b < d.contents.length
        · exact Or.inr ⟨rfl, by omega, hbegun, by omega⟩
        · -- nothing of the copy was on the device, so it is zeros now
          have hzeros := Bytes.window_of_length_le blockSize (Nat.le_of_not_lt hbegun)
          rw [hsize, Bytes.window_append, Bytes.window_append] at hwindow
          have hblock := (List.append_inj hwindow (by simp)).1
          exact absurd hs (Layout.headless_of_zeros (hblock.trans hzeros)).not_stored
    · exact absurd hs hnone.not_stored

theorem openOn_of_headless (hl : settings.layout = .ok l) {d : Memory}
    (hplan : ∀ n, d.plan.writeTears n = none)
    (hfits : ∀ w ∈ blanking l, w.offset + w.data.length ≤ d.limit)
    (hnone : ((Survey.take l settings.verifyHeader : StateM Memory _) d).1.current? = none) :
    ((openOn settings { readOnly := true } : StateM Memory _) d).1 = .error .noValidStore ∧
      ∃ s, ((openOn settings {} : StateM Memory _) d).1 = .ok s ∧ s.vars = {} ∧
        s.current = .a ∧ s.header.serial = 1 := by
  have hplaced := Settings.placed hl
  obtain ⟨-, -, -, hsame⟩ := Survey.taken l settings.verifyHeader d
  constructor
  · rw [openOn_eq_begin hl rfl, begin_apply]
    simp only [ofSurvey_eq_none_iff.2 hnone, if_true]
  · have hspace : ({} : Variables).packedSize < l.variableSpace :=
      Nat.lt_of_le_of_lt (Nat.zero_le _) l.variableLimit_lt
    rw [openOn_initializing hl rfl (Or.inr hnone), hnone]
    obtain ⟨u, hu, hok⟩ := establish_of_fits hplaced hspace
      (d := ((Survey.take l settings.verifyHeader : StateM Memory _) d).2)
      (by rw [hsame.plan]; exact hplan) (by rw [hsame.limit]; exact hfits)
    obtain ⟨htarget, hready⟩ := firstUpdate_ready hplaced hu
    refine ⟨_, hok, rfl, htarget, ?_⟩
    show u.header.serial = 1
    rw [hready.header]
    rfl

theorem openOn_withPlan_of_headless (hl : settings.layout = .ok l) {d : Memory}
    (hfits : ∀ w ∈ blanking l, w.offset + w.data.length ≤ d.limit)
    (hnone : ∀ t, l.Headless d.contents t) (v : Bool) :
    let fresh : Settings := { settings with verifyHeader := v }
    (d.survey l v).current? = none ∧
    ((openOn fresh { readOnly := true } : StateM Memory _) (d.withPlan {})).1 =
      .error .noValidStore ∧
    ∃ s, ((openOn fresh {} : StateM Memory _) (d.withPlan {})).1 = .ok s ∧
      s.vars = {} ∧ s.current = .a ∧ s.header.serial = 1 := by
  intro fresh
  have hfresh : fresh.layout = .ok l := hl
  have hcurrent : (d.survey l v).current? = none := Memory.current?_of_headless hnone
  have hroom : ∀ w ∈ blanking l, w.offset + w.data.length ≤ (d.withPlan {}).limit := by
    rw [Memory.limit_withPlan]
    exact hfits
  exact ⟨hcurrent, openOn_of_headless hfresh (fun _ => rfl) hroom hcurrent⟩

end Session

/-- Interrupted initialization. Opening blanks both copies and writes a first one, and this fails,
with the last header block stored whole or not at all. Then an accepted copy has the bytes that
stood there, and was accepted there but for one case: a copy B below copy A over whose part the
device has grown. The error tells whether one of the blanking writes failed. If none did, nothing is
accepted, and the next opening for writing begins an empty store. -/
theorem interrupted_initialization (hl : settings.layout = .ok l) {flags : OpenFlags}
    (hwriter : flags.readOnly = false) {d : Memory}
    (hinit : flags.forceInit = true ∨
      ((Survey.take l settings.verifyHeader : StateM Memory _) d).1.current? = none)
    {err : StoreError}
    (herr : ((Session.openOn settings flags : StateM Memory _) d).1 = .error err)
    (hcalls : ∀ x ∈ d.since ((Session.openOn settings flags : StateM Memory _) d).2,
      x.headerWhole l = true) :
    let after := ((Session.openOn settings flags : StateM Memory _) d).2
    let first := ((d.since after).filterMap Access.write?).take 4
    (∀ v t h, Stored l v after.contents t h →
      Bytes.slice after.contents (l.offset t) l.copySize =
          Bytes.window d.contents (l.offset t) l.copySize ∧
        (Stored l v d.contents t h ∨
          t = .b ∧ l.offset .b < l.offset .a ∧ l.offset .b < d.contents.length ∧
            d.contents.length < l.offset .b + l.copySize)) ∧
    first.map Prod.fst <+: Session.blanking l ∧
    ((∃ e, err = .io e) ↔ ∃ w o, (w, o) ∈ first ∧ o ≠ .stored) ∧
    ((∃ e, err = .indeterminate e) ↔ first = (Session.blanking l).map fun w => (w, .stored)) ∧
    ((∃ e, err = .indeterminate e) → ∀ v,
      let fresh : Settings := { settings with verifyHeader := v }
      (after.survey l v).current? = none ∧
      ((Session.openOn fresh { readOnly := true } : StateM Memory _) (after.withPlan {})).1 =
        .error .noValidStore ∧
      ∃ s, ((Session.openOn fresh {} : StateM Memory _) (after.withPlan {})).1 = .ok s ∧
        s.vars = {} ∧ s.current = .a ∧ s.header.serial = 1) := by
  have hplaced := Settings.placed hl
  obtain ⟨-, -, -, hsame⟩ := Survey.taken l settings.verifyHeader d
  rw [Session.openOn_initializing hl hwriter hinit] at herr hcalls ⊢
  obtain ⟨reads, hall, hreads⟩ := Session.since_establish l settings.verifyHeader
    (l.keptOn d.contents ((Survey.take l settings.verifyHeader : StateM Memory _) d).1.current?) d
  generalize l.keptOn d.contents
    ((Survey.take l settings.verifyHeader : StateM Memory _) d).1.current? = kept at *
  generalize ((Survey.take l settings.verifyHeader : StateM Memory _) d).2 = e at *
  intro after first
  have hfirst : first = ((e.since after).filterMap Access.write?).take 4 := by
    rw [← List.nil_append ((e.since after).filterMap Access.write?),
      ← Session.filterMap_write?_reads hreads, ← List.filterMap_append, ← hall]
  have hstored : ∀ w o, (w, o) ∈ (Session.blanking l).map (fun w => (w, WriteOutcome.stored)) →
      o = .stored := by
    intro w o hx
    obtain ⟨v, _, hpair⟩ := List.mem_map.1 hx
    exact (congrArg Prod.snd hpair).symm
  have hwhole : ∀ x ∈ e.since after, x.headerWhole l = true := by
    intro x hx
    apply hcalls x
    rw [hall]
    exact List.mem_append_right _ hx
  rcases Session.establish_error hplaced herr hwhole with
    ⟨cause, done, w, rest, o, rfl, ho, hws, hsince, hafter⟩ |
    ⟨cause, calls, rfl, hsince, hfits, hnone⟩
  · have hwrites : first = done.map (fun w => (w, .stored)) ++ [(w, o)] := by
      rw [hfirst, hsince]
      exact Session.first_of_cut hws o
    have hfailed : (w, o) ∈ first := by
      rw [hwrites]
      exact List.mem_append_right _ List.mem_cons_self
    refine ⟨?_, ?_, ?_, ?_, nofun⟩
    · intro v t h hs
      have hcut : after = ((BlockDevice.writeAll (Session.blanking l) : StateM Memory _) e).2 :=
        hafter
      rw [hcut] at hs ⊢
      rw [← hsame.contents]
      exact Session.stored_of_blanking hplaced e hs
    · refine ⟨rest, ?_⟩
      rw [hws, hwrites]
      simp [Function.comp_def]
    · exact ⟨fun _ => ⟨w, o, hfailed, ho⟩, fun _ => ⟨cause, rfl⟩⟩
    · refine ⟨nofun, fun hblanked => ?_⟩
      rw [hblanked] at hfailed
      exact absurd (hstored w o hfailed) ho
  · have hwrites : first = (Session.blanking l).map fun w => (w, .stored) := by
      rw [hfirst, hsince]
      exact Session.first_of_blanked l calls
    refine ⟨?_, ?_, ?_, ⟨fun _ => hwrites, fun _ => ⟨cause, rfl⟩⟩, ?_⟩
    · intro v t h hs
      exact absurd hs (hnone t).not_stored
    · rw [hwrites, List.map_map]
      exact ⟨[], by simp [Function.comp_def]⟩
    · refine ⟨nofun, ?_⟩
      rintro ⟨w, o, hmem, ho⟩
      rw [hwrites] at hmem
      exact absurd (hstored w o hmem) ho
    · intro _
      exact Session.openOn_withPlan_of_headless hl hfits hnone

/-- A forced initialization over a valid copy A whose last write stores nothing. -/
theorem interrupted_initialization_cut :
    let l : Layout := ⟨1, 0, 1024⟩
    let settings : Settings := { sectors := 1 }
    let raw := Update.unstamped l (Region.encode {} ++ Bytes.zeros 999)
    let d : Memory :=
      { contents := (Copy.stamp (.fresh 1 2 3 1) raw).2,
        plan := { writeTears := fun n => if n = 5 then some 0 else none } }
    let after := ((Session.openOn settings { forceInit := true } : StateM Memory _) d).2
    (d.survey l false).current? = some .a ∧
    (∃ e, ((Session.openOn settings { forceInit := true } : StateM Memory _) d).1 =
      .error (.indeterminate e)) ∧
    (after.survey l false).current? = none ∧
    ∃ s, ((Session.openOn settings {} : StateM Memory _) (after.withPlan {})).1 = .ok s ∧
      s.header.serial = 1 := by
  intro l settings raw d after
  have hl : settings.layout = .ok l := eq_ok_of_toOption (by decide +kernel)
  have hplaced := Settings.placed hl
  have hlength : (Region.encode {} ++ Bytes.zeros 999).length = l.variableSpace := by
    decide +kernel
  have hfinds : d.Finds l false .a _ d.contents :=
    Memory.finds_front hplaced rfl (UInt16.le_refl _) rfl (Update.length_unstamped hlength) rfl
  have hfound : ((Survey.take l false : StateM Memory _) d).1.current? = some .a := by
    rw [Memory.current?_take fun _ => rfl]
    exact hfinds.current
  have hkept : l.keptOn d.contents (some .a) = {} := by
    show l.preservedOn d.contents .a = _
    rw [Layout.preservedOn_front hplaced rfl _ hlength,
      Region.readTolerant_encode Variables.storable_empty]
    rfl
  have hinit : ({ forceInit := true } : OpenFlags).forceInit = true ∨
      ((Survey.take l false : StateM Memory _) d).1.current? = none := Or.inl rfl
  have hrun : (Session.openOn settings { forceInit := true } : StateM Memory _) d =
      (Session.establish l {} : StateM Memory _)
        ((Survey.take l false : StateM Memory _) d).2 := by
    rw [← hkept, ← hfound]
    exact Session.openOn_initializing hl rfl hinit
  have hfails : (match ((Session.establish l {} : StateM Memory _)
        ((Survey.take l false : StateM Memory _) d).2).1 with
      | .error (.indeterminate _) => true
      | _ => false) = true := by
    decide +kernel
  have hcalls : ((d.since ((Session.establish l {} : StateM Memory _)
      ((Survey.take l false : StateM Memory _) d).2).2).all (·.headerWhole l)) = true := by
    decide +kernel
  rw [← hrun] at hfails hcalls
  obtain ⟨e, herr⟩ : ∃ e, ((Session.openOn settings { forceInit := true } : StateM Memory _)
      d).1 = .error (.indeterminate e) := by
    revert hfails
    cases ((Session.openOn settings { forceInit := true } : StateM Memory _) d).1 with
    | ok s => exact nofun
    | error err =>
      cases err with
      | indeterminate e => exact fun _ => ⟨e, rfl⟩
      | _ => exact nofun
  obtain ⟨-, -, -, -, hagain⟩ := interrupted_initialization hl rfl hinit herr
    (List.all_eq_true.1 hcalls)
  obtain ⟨hnone, -, s, hs, -, -, hserial⟩ := hagain ⟨e, rfl⟩ false
  exact ⟨hfinds.current, ⟨e, herr⟩, hnone, s, hs, hserial⟩

theorem Checksum.run_zeros (n : Nat) : run 0 (Bytes.zeros n) = 0 := by
  induction n with
  | zero => rfl
  | succ n ih =>
    have hfeed : feed 0 0 = 0 := by decide
    rw [Bytes.zeros, List.replicate_succ, run, List.foldl_cons, hfeed]
    exact ih

/-- A copy that ends in a zero byte, since its extension has the checksum `0x00F0958F`. -/
def copyEndingInZero : Header × Bytes :=
  Copy.stamp (.fresh 0 0 10 1)
    (Bytes.zeros 512 ++ [0xFF, 0xFF, 0xFF, 0xFF] ++ Bytes.zeros 503 ++ [0xD9] ++ Bytes.zeros 4)

theorem window_copyEndingInZero :
    Bytes.window (copyEndingInZero.2.take 1023) 0 1024 = copyEndingInZero.2 := by
  have hextension : (Copy.stampBody (.fresh 0 0 10 1) (Bytes.zeros 512 ++ [0xFF, 0xFF, 0xFF, 0xFF] ++
      Bytes.zeros 503 ++ [0xD9] ++ Bytes.zeros 4)).drop blockSize =
        [0xFF, 0xFF, 0xFF, 0xFF] ++ (Bytes.zeros 503 ++ [0xD9]) := by
    decide +kernel
  have hstart : Checksum.run 0xFFFFFFFF [0xFF, 0xFF, 0xFF, 0xFF] = 0 := by decide +kernel
  have hcrc : Checksum.crc32 ([0xFF, 0xFF, 0xFF, 0xFF] ++ (Bytes.zeros 503 ++ [0xD9])) =
      0x00F0958F := by
    rw [Checksum.crc32_append, Checksum.run_append, hstart, Checksum.run_zeros]
    decide +kernel
  have hlast : copyEndingInZero.2.getD 1023 0 = 0 := by
    rw [copyEndingInZero, Copy.stamp_snd, hextension, hcrc, Bytes.getD_append,
      Copy.length_stampBody _ (by decide +kernel)]
    decide +kernel
  have hlen : copyEndingInZero.2.length = 1024 := by
    rw [copyEndingInZero, Copy.length_stamp (by decide +kernel)]
    decide +kernel
  apply Bytes.ext_getD
  · rw [Bytes.length_window, hlen]
  · intro i hi
    rw [Bytes.length_window] at hi
    rw [Bytes.getD_window, if_pos hi, Nat.zero_add, Bytes.getD_take]
    by_cases hbefore : i < 1023
    · rw [if_pos hbefore]
    · have hi : i = 1023 := by omega
      rw [if_neg hbefore, hi, hlast]

/-- Copy B lies below copy A, and the device lacks the last byte of it, which is zero. Blanking
breaks off when the header block of copy A is zeros. The device now reaches to the end of that
block, and copy B is found, though no copy was accepted before. -/
theorem interrupted_initialization_grown :
    let l : Layout := ⟨1, 1024, 0⟩
    let settings : Settings := { sectors := 1, offsetA := 1024, offsetB := some 0 }
    let d : Memory :=
      { contents := copyEndingInZero.2.take 1023,
        plan := { writeTears := fun n => if n = 1 then some 0 else none } }
    let after := ((Session.openOn settings {} : StateM Memory _) d).2
    settings.layout = .ok l ∧
    (∃ e, ((Session.openOn settings {} : StateM Memory _) d).1 = .error (.io e)) ∧
    (∀ x ∈ d.since after, x.headerWhole l = true) ∧
    (∀ v t h, ¬ Stored l v d.contents t h) ∧
    ∀ v, after.Finds l v .b copyEndingInZero.1 copyEndingInZero.2 := by
  intro l settings d after
  have hl : settings.layout = .ok l := eq_ok_of_toOption (by decide +kernel)
  have hplaced := Settings.placed hl
  have herr : (match ((Session.openOn settings {} : StateM Memory _) d).1 with
      | .error (.io _) => true
      | _ => false) = true := by
    decide +kernel
  have hcalls : ((d.since after).all (·.headerWhole l)) = true := by
    decide +kernel
  have hbefore : d.contents.length = 1023 := by
    decide +kernel
  have hafter : after.contents.length = 1536 := by
    decide +kernel
  have hheader : (Header.decode (l.blockOn after.contents .b)).toOption.isSome = true := by
    decide +kernel
  have hwindow : Bytes.window after.contents (l.offset .b) l.copySize =
      Bytes.window d.contents (l.offset .b) l.copySize := by
    rcases Session.openOn_device hl {} d with hcontents | ⟨vs, e, he, hestablish⟩
    · rw [hcontents]
    · have hleft := Session.window_or_headless_establish hplaced vs e
      rw [← hestablish, he] at hleft
      rcases hleft with ⟨-, hwindow⟩ | ⟨cause, hnone⟩
      · exact hwindow
      · rw [hnone] at hheader
        cases hheader
  refine ⟨hl, ?_, List.all_eq_true.1 hcalls, ?_, ?_⟩
  · revert herr
    cases ((Session.openOn settings {} : StateM Memory _) d).1 with
    | ok s => exact nofun
    | error err =>
      cases err with
      | io e => exact fun _ => ⟨e, rfl⟩
      | _ => exact nofun
  · intro v t h hs
    have hfits := hs.fits
    rw [hbefore] at hfits
    cases t <;> exact absurd hfits (by decide)
  · intro v
    have hsize : l.copySize = 1024 := by decide
    have hslice : Bytes.slice after.contents (l.offset .b) l.copySize = copyEndingInZero.2 := by
      rw [Bytes.slice_eq_window (by rw [hafter]; decide), hwindow, hsize]
      exact window_copyEndingInZero
    have hstored : Stored l v after.contents .b copyEndingInZero.1 := by
      refine ⟨by rw [hafter]; decide, ?_⟩
      rw [hslice]
      exact Copy.validate_stamp _ (by decide +kernel) v (UInt16.le_refl _) rfl
    have hfinds := after.finds_of_stored hstored ?_
    · rw [hslice] at hfinds
      exact hfinds
    · -- copy A is only begun
      intro g hg
      have hfits := hg.fits
      rw [hafter] at hfits
      exact absurd hfits (by decide)

end BootStore
