import BootStore.Proofs.InPlace
import BootStore.Proofs.Opening

/-!
# Admission

A session counts what its variables take. The count is never off, and once a variable was set or
deleted it leaves room for every commit (`admission_suffices`).
-/
namespace BootStore

variable {l : Layout}

namespace Variables

variable {vs after : Variables} {name : String} {value : Option String} {limit : Nat}

theorem packedSize_erase_lt (h : name ∈ vs.names) : (vs.erase name).packedSize < vs.packedSize := by
  obtain ⟨front, old, back, hfirst, hvs⟩ := exists_first h
  have htaken : vs.takenBy name = (Variable.mk name old).packedSize := by
    rw [takenBy, hvs, find?_first hfirst]
    rfl
  have hsize := packedSize_first hfirst hvs
  rw [packedSize_erase]
  simp only [Variable.packedSize] at htaken
  omega

theorem packedSize_of_set (h : vs.set name value limit = .ok after) :
    after.packedSize ≤ limit ∨ after.packedSize < vs.packedSize := by
  have hremove : vs.remove name = .ok after → after.packedSize < vs.packedSize := by
    intro hr
    obtain ⟨hany, rfl⟩ := remove_eq_ok hr
    apply packedSize_erase_lt
    simpa [names] using hany
  cases value with
  | none => exact Or.inr (hremove h)
  | some v =>
    rw [Variables.set] at h
    by_cases hempty : v.isEmpty = true
    · rw [if_pos hempty] at h
      exact Or.inr (hremove h)
    · rw [if_neg hempty] at h
      obtain ⟨-, -, hroom, rfl⟩ := put_eq_ok h
      rw [packedSize_insert]
      exact Or.inl hroom

end Variables

/-- What a session counts of its variables, and whether any was set or deleted since it began. -/
structure Tally where
  size : Nat
  edited : Bool

def Operation.edit? : Operation → Option (String × Option String)
  | .set name value => some (name, value)
  | .delete name => some (name, none)
  | .commit | .markInProgress | .markSuccessful => none

def Tally.after (n : Tally) (s : Session) (op : Operation) (result : Except StoreError Unit) :
    Tally :=
  match op.edit?, result with
  | some (name, value), .ok () => ⟨s.vars.resize n.size name value, true⟩
  | _, _ => n

/-- The sessions and devices that operations lead to, with the count that is kept on the way. -/
inductive Counted (s₀ : Session) (d₀ : Memory) : Session → Memory → Tally → Prop where
  | start : Counted s₀ d₀ s₀ d₀ ⟨s₀.vars.runningSize, false⟩
  | call {s : Session} {d : Memory} {n : Tally} (op : Operation) : Counted s₀ d₀ s d n →
      Counted s₀ d₀ ((op.run s : StateM Memory _) d).1.2 ((op.run s : StateM Memory _) d).2
        (n.after s op ((op.run s : StateM Memory _) d).1.1)

namespace Session

/-- A list fits its region, perhaps without the end mark, and with it if it was edited. -/
structure Fits (l : Layout) (s : Session) (n : Tally) : Prop where
  layout : s.layout = l
  size : n.size = s.vars.packedSize
  within : s.vars.packedSize ≤ l.variableSpace
  room : n.edited = true → s.vars.packedSize < l.variableSpace

variable {s : Session} {n : Tally} {d : Memory}

theorem fits_of_openOn {settings : Settings} (hl : settings.layout = .ok l) {flags : OpenFlags}
    (h : ((openOn settings flags : StateM Memory _) d).1 = .ok s) :
    s.Fits l ⟨s.vars.runningSize, false⟩ := by
  rcases openOn_starts hl h with ⟨-, hbegun, -⟩ | ⟨vs, -, hestablish⟩
  · obtain ⟨calls, htaken, -⟩ := Survey.taken l settings.verifyHeader d
    have hregion := Copy.length_variableRegion (htaken s.current).length_bytes
    have hread := Region.packedSize_readTolerant_le (Copy.variableRegion l
      (((Survey.take l settings.verifyHeader : StateM Memory _) d).1.sighting s.current).bytes)
    rw [hregion, ← hbegun.vars] at hread
    exact ⟨hbegun.layout, s.vars.runningSize_eq, hread, nofun⟩
  · rw [hestablish] at h
    obtain ⟨u, hu, rfl, -⟩ := establish_ok (Settings.placed hl) h
    rcases Update.prepare_cases l .a (.fresh 0 0 1 l.sectors) vs with ⟨hroom, -⟩ | ⟨-, herr⟩
    · exact ⟨rfl, vs.runningSize_eq, Nat.le_of_lt hroom, nofun⟩
    · rw [firstUpdate, herr] at hu
      cases hu

theorem Fits.edit (hs : s.Fits l n) (name : String) (value : Option String) :
    let out := Operation.edit s (s.set name value)
    out.2.Fits l (n.after s (.set name value) out.1) := by
  cases hset : s.set name value with
  | error e => exact hs
  | ok after =>
    obtain ⟨vs, hvs, rfl⟩ := set_cases hset
    have hlimit := s.layout.variableLimit_lt
    have hwithin := hs.within
    have hsize := Variables.packedSize_of_set hvs
    rw [hs.layout] at hsize hlimit
    have hroom : vs.packedSize < l.variableSpace := by omega
    refine ⟨hs.layout, ?_, Nat.le_of_lt hroom, fun _ => hroom⟩
    show s.vars.resize n.size name value = vs.packedSize
    rw [hs.size]
    exact Variables.resize_eq hvs

theorem commitWith_keeps_vars (s : Session) (h : Header) (d : Memory) :
    ((s.commitWith h : StateM Memory _) d).1.2.vars = s.vars ∧
      ((s.commitWith h : StateM Memory _) d).1.2.layout = s.layout := by
  rcases s.commitWith_cases h d with ⟨e, he⟩ | ⟨u, -, -, -, ⟨-, hout⟩ | ⟨e, -, hout⟩⟩
  · rw [he]
    exact ⟨rfl, rfl⟩
  · rw [hout]
    exact ⟨rfl, rfl⟩
  · rw [hout]
    exact ⟨rfl, rfl⟩

theorem Fits.run (hs : s.Fits l n) (op : Operation) (d : Memory) :
    let out := (op.run s : StateM Memory _) d
    out.1.2.Fits l (n.after s op out.1.1) := by
  have hcommit : ∀ h, op.header? s = some h →
      ((op.run s : StateM Memory _) d).1.2.Fits l n := by
    intro h hop
    obtain ⟨hvars, hlayout⟩ := s.commitWith_keeps_vars h d
    rw [Operation.run_of_header? hop]
    exact ⟨hlayout.trans hs.layout, by rw [hvars, hs.size], by rw [hvars]; exact hs.within,
      by rw [hvars]; exact hs.room⟩
  cases op with
  | set name value => exact hs.edit name value
  | delete name => exact hs.edit name none
  | commit => exact hcommit _ rfl
  | markInProgress => exact hcommit _ rfl
  | markSuccessful => exact hcommit _ rfl

theorem commitWith_sizeExceeded_iff (hmode : s.mode = .writable) (h : Header) (d : Memory) :
    (∃ x, ((s.commitWith h : StateM Memory _) d).1.1 = .error (.sizeExceeded x)) ↔
      s.layout.variableSpace ≤ s.vars.packedSize := by
  rcases Update.prepare_cases s.layout s.current.other (s.nextHeader h) s.vars with
    ⟨hroom, u, hu⟩ | ⟨hfull, herr⟩
  · refine iff_of_false ?_ (Nat.not_le_of_lt hroom)
    rintro ⟨x, hx⟩
    rcases (commitWith_writes hmode hu d).2 with ⟨-, hout⟩ | ⟨e, -, hout⟩
    · rw [hout] at hx
      cases hx
    · rw [hout] at hx
      cases hx
  · refine iff_of_true ?_ hfull
    rw [commitWith_unfit hmode herr]
    exact ⟨_, rfl⟩

end Session

theorem Counted.fits {s₀ s : Session} {d₀ d : Memory} {n : Tally}
    (h₀ : s₀.Fits l ⟨s₀.vars.runningSize, false⟩) (hr : Counted s₀ d₀ s d n) : s.Fits l n := by
  induction hr with
  | start => exact h₀
  | call op _ ih => exact ih.run op _

/-- Admission suffices for every commit. Whatever is asked of a session and whatever fails, the
count of what its variables take is the sum over the list and within the variable region. Packing
them entry by entry fails if and only if they fill the region, and exactly then a commit of a
writable session is refused for their size. Once a variable was set or deleted they do not fill it,
so that no commit is refused for their size again. -/
theorem admission_suffices {settings : Settings} (hl : settings.layout = .ok l)
    {flags : OpenFlags} {d₀ : Memory} {s₀ : Session}
    (hopen : ((Session.openOn settings flags : StateM Memory _) d₀).1 = .ok s₀)
    {s : Session} {d : Memory} {n : Tally}
    (hr : Counted s₀ ((Session.openOn settings flags : StateM Memory _) d₀).2 s d n) :
    n.size = s.vars.entries.foldr
      (fun v rest => v.name.utf8ByteSize + v.value.utf8ByteSize + 2 + rest) 0 ∧
    n.size ≤ l.variableSpace ∧
    (∀ region : Bytes, region.length = l.variableSpace →
      ((∃ k, (Region.pack s.vars region).1 = .ok k) ↔ n.size ≠ l.variableSpace)) ∧
    (n.size = l.variableSpace → n.edited = false) ∧
    ∀ (op : Operation) (h : Header), op.header? s = some h →
      let result := ((op.run s : StateM Memory _) d).1.1
      (s.isReadOnly = false →
        ((∃ x, result = .error (.sizeExceeded x)) ↔ n.size = l.variableSpace)) ∧
      (n.edited = true → ∀ x, result ≠ .error (.sizeExceeded x)) := by
  have hs := hr.fits (Session.fits_of_openOn hl hopen)
  have hwithin := hs.within
  have hsize := hs.size
  have hunedited : n.size = l.variableSpace → n.edited = false := by
    intro hfull
    rw [← Bool.not_eq_true]
    intro hedited
    have hroom := hs.room hedited
    omega
  refine ⟨hsize.trans s.vars.packedSize_eq, by omega, ?_, hunedited, ?_⟩
  · intro region hregion
    rw [Region.pack_eq_ok_iff, hregion]
    omega
  intro op h hop result
  have hresult : result = ((s.commitWith h : StateM Memory _) d).1.1 := by
    show ((op.run s : StateM Memory _) d).1.1 = _
    rw [Operation.run_of_header? hop]
  have hiff : s.isReadOnly = false →
      ((∃ x, result = .error (.sizeExceeded x)) ↔ n.size = l.variableSpace) := by
    intro hopen
    rw [hresult, Session.commitWith_sizeExceeded_iff (Session.isReadOnly_eq_false.1 hopen),
      hs.layout]
    omega
  refine ⟨hiff, ?_⟩
  intro hedited x hx
  cases hmode : s.isReadOnly with
  | false =>
    rw [hunedited ((hiff hmode).1 ⟨x, hx⟩)] at hedited
    cases hedited
  | true =>
    rw [hresult, Session.commitWith_refused hmode] at hx
    cases hx

/-- The only variable of a store fills the region. It cannot be committed until it is deleted. -/
theorem admission_suffices_full_region :
    let l : Layout := ⟨1, 0, 1024⟩
    let settings : Settings := { sectors := 1 }
    let full : Variable := ⟨"_", String.ofList (List.replicate 997 'a')⟩
    let d₀ : Memory :=
      { contents := (Copy.stamp (.fresh 0 0 1 1) (Update.unstamped l full.encode)).2 }
    let opened := (Session.openOn settings {} : StateM Memory _) d₀
    ∃ s₀ s d n, opened.1 = .ok s₀ ∧ s₀.isReadOnly = false ∧
      (∃ x, ((Operation.commit.run s₀ : StateM Memory _) opened.2).1.1 =
        .error (.sizeExceeded x)) ∧
      Counted s₀ opened.2 s d n ∧ n.edited = true ∧
      ∀ x, ((Operation.commit.run s : StateM Memory _) d).1.1 ≠ .error (.sizeExceeded x) := by
  intro l settings full d₀ opened
  have hl : settings.layout = .ok l := eq_ok_of_toOption (by decide +kernel)
  have hplaced := Settings.placed hl
  have hlength : full.encode.length = l.variableSpace := by decide +kernel
  have hfull : full.Storable := by decide +kernel
  have hread := Region.readTolerant_single hfull
  have hregion : Copy.variableRegion l d₀.contents = full.encode :=
    Update.variableRegion_stamp_unstamped hplaced (.fresh 0 0 1 1) hlength
  have hfinds := Memory.finds_front (v := false) (d := d₀) hplaced rfl (UInt16.le_refl _) rfl
    (Update.length_unstamped hlength) rfl
  have hcalm : d₀.ReadsSucceed := fun _ => rfl
  clear_value d₀
  obtain ⟨s₀, hopened, -, -, hvars, hdegraded, hwritable⟩ :=
    Session.openOn_found hl (show ({} : OpenFlags).forceInit = false from rfl) hcalm hfinds
  rw [hregion, hread] at hvars hdegraded
  have hopen : s₀.isReadOnly = false := by
    refine Session.isReadOnly_eq_false.2 (hwritable.2 ⟨rfl, ?_⟩)
    rw [← Bool.not_eq_true, hdegraded]
    exact fun hnone => hnone rfl
  have hok : opened.1 = .ok s₀ := congrArg Prod.fst hopened
  have hcommit := (admission_suffices hl hok .start).2.2.2.2 .commit _ rfl
  have hsize : s₀.vars.runningSize = l.variableSpace := by
    rw [hvars]
    decide +kernel
  have hdelete : s₀.set "_" none =
      .ok { s₀ with vars := (Variables.of [full]).erase "_" } := by
    rw [Session.set, if_neg (by rw [hopen]; exact Bool.false_ne_true), hvars]
    rfl
  have hcounted : Counted s₀ opened.2 _ _ _ := Counted.start.call (.delete "_")
  have hedited : (Tally.after ⟨s₀.vars.runningSize, false⟩ s₀ (.delete "_")
      (Operation.edit s₀ (s₀.set "_" none)).1).edited = true := by
    rw [hdelete]
    rfl
  have hlater := (admission_suffices hl hok hcounted).2.2.2.2 .commit _ rfl
  exact ⟨s₀, _, _, _, hok, hopen, (hcommit.1 hopen).2 hsize, hcounted, hedited, hlater.2 hedited⟩

end BootStore
