import BootStore.Proofs.Lifetime
import Mathlib.Logic.Function.Basic

/-!
# The frame of a store's writes

Sessions that are open side by side on one device write to the regions of the two copies and to
nothing else, and an operation not to the copy that is current (`writes_stay_within_copies`).
-/
namespace BootStore

variable {l : Layout}

def Layout.Holds (l : Layout) (t : Slot) (i : Nat) : Prop :=
  l.offset t ≤ i ∧ i < l.offset t + l.copySize

theorem Layout.Placed.holds_unique (hl : l.Placed) {s t : Slot} {i : Nat} (hs : l.Holds s i)
    (ht : l.Holds t i) : s = t := by
  obtain ⟨hs, hs'⟩ := hs
  obtain ⟨ht, ht'⟩ := ht
  rcases Slot.eq_or_eq_other s t with rfl | rfl
  · rfl
  · have hapart := hl.apart t
    omega

theorem Bytes.getElem?_of_getD_eq {a b : Bytes} {i : Nat} (ha : i < a.length) (hb : i < b.length)
    (h : a.getD i 0 = b.getD i 0) : a[i]? = b[i]? := by
  rw [List.getD_eq_getElem?_getD, List.getD_eq_getElem?_getD, List.getElem?_eq_getElem ha,
    List.getElem?_eq_getElem hb] at h
  rw [List.getElem?_eq_getElem ha, List.getElem?_eq_getElem hb]
  exact congrArg some h

theorem WriteOutcome.getElem?_leave (o : WriteOutcome) {before : Bytes} {w : Write} {i : Nat}
    (hi : i < before.length) (hw : i < w.offset ∨ w.offset + w.data.length ≤ i) :
    (o.leave before w)[i]? = before[i]? := by
  have hlen := o.length_le_leave before w
  apply Bytes.getElem?_of_getD_eq (by omega) hi
  rcases o.leave_cases before w with h | ⟨n, h⟩
  · rw [h]
  · rw [h, Bytes.getD_overwrite, if_neg]
    rw [List.length_take]
    omega

namespace Memory

/-- What happened between two states of a device was confined to the copies in some slots: each
write, successful or not, lay in the region of one of them, and no other byte has changed. -/
structure Confined (l : Layout) (allowed : Slot → Prop) (before after : Memory) : Prop where
  log : after.log = before.log ++ before.since after
  writes : ∀ w o, .write w o ∈ before.since after →
    ∃ t, allowed t ∧ w.Within (l.offset t) l.copySize
  grown : before.contents.length ≤ after.contents.length
  bytes : ∀ i, i < before.contents.length → (∀ t, allowed t → ¬ l.Holds t i) →
    after.contents[i]? = before.contents[i]?

namespace Confined

variable {allowed : Slot → Prop} {d d₁ d₂ d₃ : Memory}

theorem refl (d : Memory) : Confined l allowed d d := by
  constructor
  · rw [since_self, List.append_nil]
  · intro w o hx
    rw [since_self] at hx
    cases hx
  · exact Nat.le_refl _
  · intro i hi hout
    rfl

theorem trans (h : Confined l allowed d₁ d₂) (k : Confined l allowed d₂ d₃) :
    Confined l allowed d₁ d₃ := by
  have hlog : d₃.log = d₁.log ++ (d₁.since d₂ ++ d₂.since d₃) := by
    rw [← List.append_assoc, ← h.log]
    exact k.log
  have hsince := since_of_log_eq hlog
  constructor
  · rw [hsince]
    exact hlog
  · intro w o hx
    rw [hsince] at hx
    rcases List.mem_append.1 hx with hx | hx
    · exact h.writes w o hx
    · exact k.writes w o hx
  · exact Nat.le_trans h.grown k.grown
  · intro i hi hout
    exact (k.bytes i (Nat.lt_of_lt_of_le hi h.grown) hout).trans (h.bytes i hi hout)

theorem mono {more : Slot → Prop} (h : Confined l allowed d₁ d₂) (hmore : ∀ t, allowed t → more t) :
    Confined l more d₁ d₂ := by
  refine ⟨h.log, ?_, h.grown, ?_⟩
  · intro w o hx
    obtain ⟨t, ht, hw⟩ := h.writes w o hx
    exact ⟨t, hmore t ht, hw⟩
  · intro i hi hout
    exact h.bytes i hi fun t ht => hout t (hmore t ht)

theorem slice_eq (hl : l.Placed) (h : Confined l allowed d₁ d₂) {t : Slot} (ht : ¬ allowed t)
    (hfits : l.offset t + l.copySize ≤ d₁.contents.length) :
    Bytes.slice d₂.contents (l.offset t) l.copySize =
      Bytes.slice d₁.contents (l.offset t) l.copySize := by
  apply List.ext_getElem?
  intro i
  rw [Bytes.slice, Bytes.slice, List.getElem?_take, List.getElem?_take, List.getElem?_drop,
    List.getElem?_drop]
  by_cases hi : i < l.copySize
  · rw [if_pos hi, if_pos hi]
    apply h.bytes _ (by omega)
    intro u hu hheld
    have hut := hl.holds_unique hheld ⟨Nat.le_add_right _ i, by omega⟩
    exact ht (hut ▸ hu)
  · rw [if_neg hi, if_neg hi]

end Confined

variable {allowed : Slot → Prop}

theorem confined_survey (l : Layout) (v : Bool) (d : Memory) :
    Confined l allowed d ((Survey.take l v : StateM Memory _) d).2 := by
  obtain ⟨calls, htaken, hlog, hsame⟩ := Survey.taken l v d
  have hsince := since_of_log_eq hlog
  constructor
  · rw [hsince]
    exact hlog
  · intro w o hx
    rw [hsince] at hx
    exact absurd hx (Survey.write_notMem_calls htaken w o)
  · exact Nat.le_of_eq (congrArg List.length hsame.contents.symm)
  · intro i hi hout
    rw [hsame.contents]

theorem confined_write {d : Memory} {w : Write} (hne : w.data ≠ []) {t : Slot} (ht : allowed t)
    (hw : w.Within (l.offset t) l.copySize) : Confined l allowed d (d.write w).2 := by
  obtain ⟨o, hcontents, hlog, -⟩ := d.write_cases hne
  have hsince := since_of_log_eq hlog
  obtain ⟨hstart, hends⟩ := hw
  constructor
  · rw [hsince]
    exact hlog
  · intro w' o' hx
    rw [hsince, List.mem_singleton] at hx
    cases hx
    exact ⟨t, ht, hstart, hends⟩
  · rw [hcontents]
    exact o.length_le_leave d.contents w
  · intro i hi hout
    rw [hcontents]
    apply o.getElem?_leave hi
    have hfree := hout t ht
    rw [Layout.Holds] at hfree
    omega

theorem confined_writeAll {ws : List Write}
    (hws : ∀ w ∈ ws, w.data ≠ [] ∧ ∃ t, allowed t ∧ w.Within (l.offset t) l.copySize)
    (d : Memory) : Confined l allowed d ((BlockDevice.writeAll ws : StateM Memory _) d).2 := by
  induction ws generalizing d with
  | nil => exact .refl d
  | cons w ws ih =>
    obtain ⟨hne, t, ht, hw⟩ := hws w List.mem_cons_self
    have hfirst : Confined l allowed d (d.write w).2 := confined_write hne ht hw
    rw [writeAll_cons]
    cases (d.write w).1 with
    | error e => exact hfirst
    | ok => exact hfirst.trans (ih (fun v hv => hws v (List.mem_cons_of_mem w hv)) _)

end Memory

open Memory (Confined)

namespace Session

/-- The session belongs to the layout, and the device reaches to the end of its current copy. -/
structure Anchored (l : Layout) (s : Session) (d : Memory) : Prop where
  layout : s.layout = l
  fits : l.offset s.current + l.copySize ≤ d.contents.length

theorem Anchored.of_grown {s : Session} {d d' : Memory} (hs : s.Anchored l d)
    (h : d.contents.length ≤ d'.contents.length) : s.Anchored l d' :=
  ⟨hs.layout, Nat.le_trans hs.fits h⟩

theorem within_of_mem_blanking (l : Layout) {w : Write} (hw : w ∈ blanking l) :
    ∃ t, w.Within (l.offset t) l.copySize := by
  have hsize := l.copySize_eq
  simp only [blanking, List.mem_flatMap, List.mem_cons, List.not_mem_nil, or_false] at hw
  obtain ⟨t, -, rfl | rfl⟩ := hw
  · refine ⟨t, Nat.le_refl _, ?_⟩
    simp only [Bytes.length_zeros]
    omega
  · refine ⟨t, Nat.le_add_right _ _, ?_⟩
    simp only [Bytes.length_zeros, Layout.extensionOffset]
    omega

theorem establish_confined (hl : l.Placed) (vs : Variables) (d : Memory) :
    Confined l (fun _ => True) d ((establish l vs : StateM Memory _) d).2 := by
  have hblank : ∀ w ∈ blanking l, w.data ≠ [] ∧ ∃ t, True ∧ w.Within (l.offset t) l.copySize := by
    intro w hw
    obtain ⟨t, hwithin⟩ := within_of_mem_blanking l hw
    exact ⟨data_ne_nil_of_mem_blanking hl hw, t, trivial, hwithin⟩
  rw [establish_device]
  apply Memory.confined_writeAll
  intro w hw
  unfold establishing at hw
  split at hw
  · exact hblank w hw
  next u hu =>
    rcases List.mem_append.1 hw with hw | hw
    · exact hblank w hw
    · have hparts : w ∈ u.writes l false := hw
      obtain ⟨hne, hwithin⟩ := Update.within_of_mem_writes hl (firstUpdate_ready hl hu).2 hparts
      exact ⟨hne, u.target, trivial, hwithin⟩

theorem openOn_confined {settings : Settings} (hl : settings.layout = .ok l) (flags : OpenFlags)
    (d : Memory) :
    Confined l (fun _ => True) d ((openOn settings flags : StateM Memory _) d).2 := by
  have hsurvey : Confined l (fun _ => True) d
      ((Survey.take l settings.verifyHeader : StateM Memory _) d).2 := Memory.confined_survey l _ d
  have hestablish : ∀ vs, Confined l (fun _ => True) d ((establish l vs : StateM Memory _)
      ((Survey.take l settings.verifyHeader : StateM Memory _) d).2).2 := fun vs =>
    hsurvey.trans (establish_confined (Settings.placed hl) vs _)
  cases hcheck : flags.check with
  | error e =>
    simp only [openOn, hcheck]
    exact .refl d
  | ok =>
    rw [openOn_eq_begin hl hcheck, begin_apply]
    dsimp only
    split
    · split
      · exact hsurvey
      · exact hestablish _
    · split
      · exact hestablish _
      · exact hsurvey

theorem openOn_anchored {settings : Settings} (hl : settings.layout = .ok l) {flags : OpenFlags}
    {d : Memory} {s : Session} (hs : ((openOn settings flags : StateM Memory _) d).1 = .ok s) :
    s.Anchored l ((openOn settings flags : StateM Memory _) d).2 := by
  have hgrounded := openOn_grounded hl hs
  exact ⟨hgrounded.layout, hgrounded.stored.fits⟩

theorem commitWith_confined (hl : l.Placed) {s : Session} {d : Memory} (hs : s.Anchored l d)
    (h : Header) :
    let out := (s.commitWith h : StateM Memory _) d
    Confined l (· = s.current.other) d out.2 ∧ out.1.2.Anchored l out.2 := by
  rcases s.commitWith_cases h d with ⟨e, he⟩ | ⟨u, -, hu, hd, hresult⟩
  · rw [he]
    exact ⟨.refl d, hs⟩
  · rw [nextUpdate, hs.layout] at hu
    obtain ⟨htarget, hready⟩ := Update.prepare_ready hl (UInt16.le_refl _)
      ((s.nextHeader_sectors h).trans (congrArg _ hs.layout)) hu
    rw [hs.layout] at hd hresult
    have hconfined : Confined l (· = s.current.other) d
        ((s.commitWith h : StateM Memory _) d).2 := by
      rw [hd]
      apply Memory.confined_writeAll
      intro w hw
      obtain ⟨hne, hwithin⟩ := Update.within_of_mem_writes hl hready hw
      exact ⟨hne, u.target, htarget, hwithin⟩
    refine ⟨hconfined, ?_⟩
    rcases hresult with ⟨hok, hout⟩ | ⟨e, -, hout⟩
    · rw [hout, hd]
      exact ⟨hs.layout, (Update.stored_of_writeAll_ok hl hready hok false).1.fits⟩
    · rw [hout]
      exact ⟨hs.layout, Nat.le_trans hs.fits hconfined.grown⟩

end Session

/-- Every operation is confined to the copy that is not current. -/
theorem Operation.run_confined (hl : l.Placed) {s : Session} {d : Memory} (hs : s.Anchored l d)
    (op : Operation) :
    let out := (op.run s : StateM Memory _) d
    Confined l (· = s.current.other) d out.2 ∧ out.1.2.Anchored l out.2 := by
  have hedit : ∀ name value, (edit s (s.set name value)).2.Anchored l d := by
    intro name value
    obtain ⟨vs, hvs⟩ := Operation.edit_keeps s name value
    rw [hvs]
    exact ⟨hs.layout, hs.fits⟩
  cases hop : op.header? s with
  | none =>
    cases op with
    | set name value => exact ⟨.refl d, hedit name value⟩
    | delete name => exact ⟨.refl d, hedit name none⟩
    | commit => cases hop
    | markInProgress => cases hop
    | markSuccessful => cases hop
  | some h =>
    simp only [run_of_header? hop]
    exact Session.commitWith_confined hl hs h

/-- A device and the sessions that are open on it side by side, each under a number of its own. -/
structure Shared where
  sessions : Nat → Option Session := fun _ => none
  device : Memory

namespace Shared

def step (settings : Settings) (m : Shared) (k : Nat) (event : Mount.Event) : Shared :=
  let after := (Mount.mk (m.sessions k) m.device).step settings event
  ⟨Function.update m.sessions k after.session, after.device⟩

def run (settings : Settings) (m : Shared) (events : List (Nat × Mount.Event)) : Shared :=
  events.foldl (fun m e => m.step settings e.1 e.2) m

def Anchored (l : Layout) (m : Shared) : Prop :=
  ∀ k s, m.sessions k = some s → s.Anchored l m.device

variable {settings : Settings} {m : Shared}

theorem mount_step (hl : settings.layout = .ok l) {session : Option Session} {d : Memory}
    (hs : ∀ s, session = some s → s.Anchored l d) (event : Mount.Event) :
    let after := (Mount.mk session d).step settings event
    Confined l (fun _ => True) d after.device ∧
      ∀ s, after.session = some s → s.Anchored l after.device := by
  cases event with
  | reopen flags =>
    refine ⟨Session.openOn_confined hl flags d, ?_⟩
    intro s hopen
    exact Session.openOn_anchored hl (eq_ok_of_toOption hopen)
  | close => exact ⟨.refl d, nofun⟩
  | call op =>
    cases session with
    | none => exact ⟨.refl d, nofun⟩
    | some s =>
      obtain ⟨hconfined, hanchored⟩ := op.run_confined (Settings.placed hl) (hs s rfl)
      refine ⟨hconfined.mono fun _ _ => trivial, ?_⟩
      intro s' hs'
      cases hs'
      exact hanchored

/-- A step is confined to the copies, and it leaves every session anchored: the device never
shrinks under those that it is not about. -/
theorem step_confined (hl : settings.layout = .ok l) (hm : m.Anchored l) (k : Nat)
    (event : Mount.Event) :
    Confined l (fun _ => True) m.device (m.step settings k event).device ∧
      (m.step settings k event).Anchored l := by
  obtain ⟨hconfined, hanchored⟩ := mount_step hl (hm k) event
  refine ⟨hconfined, ?_⟩
  intro j s hs
  by_cases hj : j = k
  · subst hj
    exact hanchored s (by simpa [step] using hs)
  · exact (hm j s (by simpa [step, hj] using hs)).of_grown hconfined.grown

theorem run_confined (hl : settings.layout = .ok l) (hm : m.Anchored l)
    (events : List (Nat × Mount.Event)) :
    Confined l (fun _ => True) m.device (m.run settings events).device ∧
      (m.run settings events).Anchored l := by
  induction events generalizing m with
  | nil => exact ⟨.refl m.device, hm⟩
  | cons e events ih =>
    obtain ⟨hstep, hanchored⟩ := step_confined hl hm e.1 e.2
    obtain ⟨hrest, hlast⟩ := ih hanchored
    exact ⟨hstep.trans hrest, hlast⟩

end Shared

/-- The frame of a store's writes. Over every series of openings, closings and operations of
sessions that share a device, whatever fails: the two copies lie below the offset bound and share no
byte, every write lies within the region of one copy, and no byte that was there outside of them
ever changes. An operation writes only within the copy that is not its session's current one, and
leaves the current copy as it is. -/
theorem writes_stay_within_copies {settings : Settings} (hl : settings.layout = .ok l) (d₀ : Memory)
    (events : List (Nat × Mount.Event)) :
    let m := Shared.run settings { device := d₀ } events
    (∀ t, l.offset t + l.copySize < offsetLimit) ∧
    (∀ s t i, l.Holds s i → l.Holds t i → s = t) ∧
    Confined l (fun _ => True) d₀ m.device ∧
    ∀ k s, m.sessions k = some s → ∀ op : Operation,
      let after := ((op.run s : StateM Memory _) m.device).2
      Confined l (· = s.current.other) m.device after ∧
        l.offset s.current + l.copySize ≤ m.device.contents.length ∧
        Bytes.slice after.contents (l.offset s.current) l.copySize =
          Bytes.slice m.device.contents (l.offset s.current) l.copySize := by
  intro m
  have hplaced := Settings.placed hl
  obtain ⟨hconfined, hanchored⟩ :=
    Shared.run_confined (m := { device := d₀ }) hl (fun k s hs => by cases hs) events
  refine ⟨hplaced.below, fun s t i => hplaced.holds_unique, hconfined, ?_⟩
  intro k s hs op after
  have hfits := (hanchored k s hs).fits
  obtain ⟨hop, -⟩ := op.run_confined hplaced (hanchored k s hs)
  exact ⟨hop, hfits, hop.slice_eq hplaced (Slot.other_ne s.current).symm hfits⟩

/-- On a device that has copy B before copy A, a writer starts a store in copy A, commits a variable
to copy B and marks a boot, which it writes to copy A. -/
theorem writes_stay_within_copies_in_turn :
    let settings : Settings := { sectors := 1, offsetA := 1025, offsetB := some 1 }
    let l : Layout := ⟨1, 1025, 1⟩
    let d₀ : Memory := { contents := [7] }
    let m := Shared.run settings { device := d₀ }
      [(0, .reopen {}), (0, .call (.set "a" (some "1"))), (0, .call .commit)]
    settings.layout = .ok l ∧ m.device.contents[0]? = some 7 ∧
    ∃ s w, m.sessions 0 = some s ∧ s.current = .b ∧
      .write w .stored ∈
        m.device.since ((Operation.markInProgress.run s : StateM Memory _) m.device).2 ∧
      w.Within (l.offset .a) l.copySize := by
  intro settings l d₀ m
  have hl : settings.layout = .ok l := eq_ok_of_toOption (by decide +kernel)
  have hrun : ((m.sessions 0).any fun s => s.current == .b &&
      (m.device.since ((Operation.markInProgress.run s : StateM Memory _) m.device).2).any
        (·.outcome? == some .stored)) = true := by
    decide +kernel
  obtain ⟨s, hs, hchecks⟩ := (Option.any_eq_true _ _).1 hrun
  rw [Bool.and_eq_true, beq_iff_eq, List.any_eq_true] at hchecks
  obtain ⟨hcurrent, x, hx, hstored⟩ := hchecks
  obtain ⟨-, -, hconfined, hcalls⟩ := writes_stay_within_copies hl d₀
    [(0, .reopen {}), (0, .call (.set "a" (some "1"))), (0, .call .commit)]
  have hfree : ∀ t, True → ¬ l.Holds t 0 := by
    rintro t - ⟨hstart, -⟩
    cases t <;> exact absurd hstart (by decide)
  have hframe := (hcalls 0 s hs .markInProgress).1
  cases x with
  | read => cases hstored
  | write w o =>
    have ho : o = .stored := by simpa [Access.outcome?] using hstored
    subst ho
    obtain ⟨t, rfl, hwithin⟩ := hframe.writes w .stored hx
    rw [hcurrent] at hwithin
    exact ⟨hl, hconfined.bytes 0 (by decide) hfree, s, w, hs, hcurrent, hx, hwithin⟩

end BootStore
