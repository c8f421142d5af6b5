import BootStore.Proofs.Admission
import BootStore.Proofs.OrderedMap

/-!
# Deletion

A deletion takes one entry of a name away, and a region can hold several. When the name is gone is a
matter of counting (`deletion_counts`).
-/
namespace BootStore

namespace Variables

variable {vs after : Variables} {name other : String} {value : Option String} {limit : Nat}

theorem count_of_set_of_ne (hset : vs.set other value limit = .ok after) (hne : name ≠ other) :
    after.names.count name = vs.names.count name := by
  rcases set_cases hset with ⟨-, rfl⟩ | ⟨v, -, -, -, rfl⟩
  · rw [names_erase, List.count_erase_of_ne hne]
  · rw [names_insert]
    by_cases hother : other ∈ vs.names
    · rw [if_pos hother]
    · rw [if_neg hother, List.count_append, List.count_singleton]
      simp [hne.symm]

theorem count_of_remove (hremove : vs.remove name = .ok after) :
    after.names.count name + 1 = vs.names.count name := by
  obtain ⟨⟨-, hname⟩, rfl⟩ := remove_eq_ok_iff.1 hremove
  have hpos := List.count_pos_iff.2 hname
  rw [names_erase, List.count_erase_self]
  omega

theorem count_insert (vs : Variables) (name value : String) :
    (vs.insert name value).names.count name = max 1 (vs.names.count name) := by
  rw [names_insert]
  by_cases hname : name ∈ vs.names
  · have hpos := List.count_pos_iff.2 hname
    rw [if_pos hname]
    omega
  · rw [if_neg hname, List.count_append, List.count_singleton_self, List.count_eq_zero.2 hname]
    rfl

/-- What an edit of a name makes of the number of its entries, but for the first of them. -/
theorem count_of_set (hset : vs.set name value limit = .ok after) :
    max 1 (after.names.count name) =
      max 1 (vs.names.count name - if value.getD "" = "" then 1 else 0) := by
  rcases set_cases hset with ⟨hnone, rfl⟩ | ⟨v, hv, -, -, rfl⟩
  · have hempty : value.getD "" = "" := by
      cases value with
      | none => rfl
      | some v => simpa using Option.filter_eq_none_iff.1 hnone v rfl
    rw [names_erase, List.count_erase_self, if_pos hempty]
  · obtain ⟨rfl, hv⟩ := Option.filter_eq_some_iff.1 hv
    have hnonempty : ¬ (some v).getD "" = "" := by simpa using hv
    rw [count_insert, if_neg hnonempty]
    omega

end Variables

/-- How many entries of a name an operation has deleted, by its answer. -/
def Operation.deletions (name : String) (op : Operation) (result : Except StoreError Unit) : Nat :=
  match op.edit?, result with
  | some (other, value), .ok () => if other = name ∧ value.getD "" = "" then 1 else 0
  | _, _ => 0

/-- The sessions and devices that operations lead to, with the number of times that they have
deleted a name. -/
inductive Deleted (name : String) (s₀ : Session) (d₀ : Memory) :
    Session → Memory → Nat → Prop where
  | start : Deleted name s₀ d₀ s₀ d₀ 0
  | call {s : Session} {d : Memory} {n : Nat} (op : Operation) : Deleted name s₀ d₀ s d n →
      Deleted name s₀ d₀ ((op.run s : StateM Memory _) d).1.2 ((op.run s : StateM Memory _) d).2
        (n + op.deletions name ((op.run s : StateM Memory _) d).1.1)

inductive Untouched (name : String) (s₀ : Session) (d₀ : Memory) : Session → Memory → Prop where
  | start : Untouched name s₀ d₀ s₀ d₀
  | call {s : Session} {d : Memory} (op : Operation) : Untouched name s₀ d₀ s d →
      (∀ value, op.edit? ≠ some (name, value)) →
      Untouched name s₀ d₀ ((op.run s : StateM Memory _) d).1.2 ((op.run s : StateM Memory _) d).2

namespace Operation

variable {s : Session} {d : Memory} {op : Operation} {name : String}

theorem deletions_of_error {result : Except StoreError Unit} {e : StoreError}
    (herr : result = .error e) (name : String) : op.deletions name result = 0 := by
  rw [herr]
  unfold deletions
  cases op.edit? with
  | none => rfl
  | some edit => rfl

theorem edit_vars (s : Session) (name : String) (value : Option String) :
    let out := edit s (s.set name value)
    ((∃ e, out.1 = .error e) ∧ out.2.vars = s.vars) ∨
    (out.1 = .ok () ∧ s.vars.set name value s.layout.variableLimit = .ok out.2.vars) := by
  cases hset : s.set name value with
  | error e => exact Or.inl ⟨⟨e, rfl⟩, rfl⟩
  | ok after =>
    obtain ⟨vs, hvs, rfl⟩ := Session.set_cases hset
    exact Or.inr ⟨rfl, hvs⟩

theorem run_vars (s : Session) (d : Memory) (op : Operation) :
    let out := (op.run s : StateM Memory _) d
    (out.1.2.vars = s.vars ∧ ∀ name, op.deletions name out.1.1 = 0) ∨
    ∃ name value, op.edit? = some (name, value) ∧ out.1.1 = .ok () ∧
      s.vars.set name value s.layout.variableLimit = .ok out.1.2.vars := by
  have hcommit : ∀ h, op.header? s = some h →
      ((op.run s : StateM Memory _) d).1.2.vars = s.vars := by
    intro h hop
    rw [run_of_header? hop]
    exact (s.commitWith_keeps_vars h d).1
  cases op with
  | set name value =>
    rcases edit_vars s name value with ⟨⟨e, herr⟩, hvars⟩ | hset
    · exact Or.inl ⟨hvars, deletions_of_error herr⟩
    · exact Or.inr ⟨name, value, rfl, hset⟩
  | delete name =>
    rcases edit_vars s name none with ⟨⟨e, herr⟩, hvars⟩ | hset
    · exact Or.inl ⟨hvars, deletions_of_error herr⟩
    · exact Or.inr ⟨name, none, rfl, hset⟩
  | commit => exact Or.inl ⟨hcommit _ rfl, fun name => rfl⟩
  | markInProgress => exact Or.inl ⟨hcommit _ rfl, fun name => rfl⟩
  | markSuccessful => exact Or.inl ⟨hcommit _ rfl, fun name => rfl⟩

/-- Each deletion takes an entry of its name, and setting a name makes one where there is none. -/
theorem count_run (s : Session) (d : Memory) (op : Operation) (name : String) :
    let out := (op.run s : StateM Memory _) d
    max 1 (out.1.2.vars.names.count name) =
      max 1 (s.vars.names.count name - op.deletions name out.1.1) := by
  intro out
  rcases op.run_vars s d with ⟨hvars, hnone⟩ | ⟨other, value, hop, hok, hset⟩
  · rw [hvars, hnone, Nat.sub_zero]
  · simp only [deletions, out, hop, hok]
    by_cases hother : other = name
    · subst hother
      simp only [true_and]
      exact Variables.count_of_set hset
    · rw [if_neg (fun h => hother h.1), Variables.count_of_set_of_ne hset (Ne.symm hother)]
      rfl

theorem count_run_of_untouched (s : Session) (d : Memory)
    (hop : ∀ value, op.edit? ≠ some (name, value)) :
    ((op.run s : StateM Memory _) d).1.2.vars.names.count name = s.vars.names.count name := by
  rcases op.run_vars s d with ⟨hvars, -⟩ | ⟨other, value, hedit, -, hset⟩
  · rw [hvars]
  · refine Variables.count_of_set_of_ne hset ?_
    rintro rfl
    exact hop value hedit

end Operation

namespace Session

variable {l : Layout} {s : Session} {d : Memory} {name : String}

theorem get_eq_notFound_iff (s : Session) (name : String) :
    s.get name = .error (.notFound name) ↔ name ∉ s.vars.names := by
  have hnames : name ∈ s.vars.names ↔ (s.vars.get? name).isSome := by
    rw [← Variables.mem_catalog, ← Finmap.lookup_isSome, Variables.lookup_catalog]
  rw [hnames, get]
  cases s.vars.get? name with
  | none => exact iff_of_true rfl nofun
  | some value => exact iff_of_false nofun (fun h => h rfl)

theorem Grounded.delete {after : Session} {v : Bool} {c : Bytes} (hs : s.Grounded l v c)
    (hdelete : s.delete name = .ok after) : after.Grounded l v c := by
  obtain ⟨vs, hvs, rfl⟩ := set_cases hdelete
  exact ⟨hs.layout, hs.stored, hs.storable.set hvs⟩

/-- After a commit that succeeds, a session that is opened without failures and not to begin anew
has the variables that were committed, with either setting for header blocks. -/
theorem Grounded.reopen_committed {settings : Settings} (hl : settings.layout = .ok l) {v : Bool}
    (hs : s.Grounded l v d.contents) {h : Header}
    (hok : ((s.commitWith h : StateM Memory _) d).1.1 = .ok ()) {flags : OpenFlags}
    (hflags : flags.forceInit = false) :
    ∃ fresh, ((openOn settings flags : StateM Memory _)
        (((s.commitWith h : StateM Memory _) d).2.withPlan {})).1 = .ok fresh ∧
      fresh.isDegraded = false ∧ fresh.vars = s.vars := by
  have hplaced := Settings.placed hl
  obtain ⟨u, htarget, hready, -, hd, hwritten⟩ := hs.commitWith_ok hplaced hok
  obtain ⟨hstored, himage⟩ :=
    Update.stored_of_writeAll_ok hplaced hready hwritten settings.verifyHeader
  have hkept := (hs.stored_writeAll hplaced htarget hready s.rivalOutranks).1
  have hfinds := Memory.finds_of_stored _ hstored (by
    intro g hg
    rw [htarget, Slot.other_other] at hg
    rw [hg.unique hkept]
    exact target_wins_of_ready htarget hready)
  rw [himage] at hfinds
  obtain ⟨fresh, hfresh, -, -, hvars, hdegraded, -⟩ :=
    openOn_found hl hflags (fun _ => rfl) (hfinds.withPlan {})
  rw [hready.reads hs.storable] at hvars hdegraded
  rw [hd]
  refine ⟨fresh, congrArg Prod.fst hfresh, ?_, hvars⟩
  rw [← Bool.not_eq_true, hdegraded]
  exact fun hnone => hnone rfl

theorem Grounded.commitWith_succeeds {l : Layout} (hl : l.Placed) {v : Bool}
    (hs : s.Grounded l v d.contents) (hmode : s.mode = .writable)
    (hroom : s.vars.packedSize < l.variableSpace) (hplan : ∀ n, d.plan.writeTears n = none)
    (hlimit : l.offset s.current.other + l.copySize ≤ d.limit) (h : Header) :
    ((s.commitWith h : StateM Memory _) d).1.1 = .ok () := by
  obtain ⟨u, hu⟩ := hs.nextUpdate_of_room hroom h
  obtain ⟨htarget, hready⟩ := hs.nextUpdate_ready hl hu
  have hfits : ∀ w ∈ u.writes l s.rivalOutranks, w.offset + w.data.length ≤ d.limit := by
    intro w hw
    have hwithin := (Update.within_of_mem_writes hl hready hw).2.2
    rw [htarget] at hwithin
    exact Nat.le_trans hwithin hlimit
  obtain ⟨-, ⟨-, hout⟩ | ⟨e, herr, -⟩⟩ := commitWith_writes hmode hu d
  · rw [hout]
  · rw [hs.layout, Memory.writeAll_ok_of_fits hplan hfits] at herr
    cases herr

end Session

theorem Deleted.reached {name : String} {s₀ s : Session} {d₀ d : Memory} {n : Nat}
    (hr : Deleted name s₀ d₀ s d n) : Reached (fun _ => True) s₀ d₀ s d := by
  induction hr with
  | start => exact .start
  | call op _ ih => exact .call op ih fun _ _ => trivial

/-- By induction on the run: as long as a name stands more than once, its entries and its deletions
add up to the entries that there were. -/
theorem Deleted.count {name : String} {s₀ s : Session} {d₀ d : Memory} {n : Nat}
    (hr : Deleted name s₀ d₀ s d n) :
    max 1 (s.vars.names.count name) = max 1 (s₀.vars.names.count name - n) := by
  induction hr with
  | start => rfl
  | @call s d n op _ ih =>
    have hstep := op.count_run s d name
    dsimp only at hstep
    omega

theorem Untouched.count {name : String} {s₀ s : Session} {d₀ d : Memory}
    (hr : Untouched name s₀ d₀ s d) : s.vars.names.count name = s₀.vars.names.count name := by
  induction hr with
  | start => rfl
  | call op _ hop ih => rw [op.count_run_of_untouched _ _ hop, ih]

theorem Untouched.grounded {l : Layout} (hl : l.Placed) {v : Bool} {name : String}
    {s₀ s : Session} {d₀ d : Memory} (h₀ : s₀.Grounded l v d₀.contents)
    (hr : Untouched name s₀ d₀ s d) : s.Grounded l v d.contents := by
  induction hr with
  | start => exact h₀
  | call op _ _ ih => exact op.grounded_run hl ih

/-- A deletion takes one entry of a name away and no more. Whatever the device held, however the
store was opened and whatever was done and failed since: after a deletion that succeeds the session
finds the name no more if and only if it stood at most once more often in the list that was opened
than it had been deleted before. The same decides whether the next session lists it, once this one
has committed and has not set or deleted the name again. -/
theorem deletion_counts {settings : Settings} {l : Layout} (hl : settings.layout = .ok l)
    {flags : OpenFlags} {d₀ : Memory} {s₀ : Session}
    (hopen : ((Session.openOn settings flags : StateM Memory _) d₀).1 = .ok s₀)
    {name : String} {s : Session} {d : Memory} {n : Nat}
    (hr : Deleted name s₀ ((Session.openOn settings flags : StateM Memory _) d₀).2 s d n)
    {after : Session} (hdelete : s.delete name = .ok after) :
    (after.get name = .error (.notFound name) ↔ s₀.vars.names.count name ≤ n + 1) ∧
    ∀ (s' : Session) (d' : Memory), Untouched name after d s' d' →
      ∀ (op : Operation) (h : Header), op.header? s' = some h →
      ((op.run s' : StateM Memory _) d').1.1 = .ok () →
      ∀ (verifyHeader : Bool) (reopened : OpenFlags), reopened.forceInit = false →
        ∃ fresh, ((Session.openOn { settings with verifyHeader } reopened : StateM Memory _)
            (((op.run s' : StateM Memory _) d').2.withPlan {})).1 = .ok fresh ∧
          fresh.isDegraded = false ∧
          (name ∉ fresh.vars.names ↔ s₀.vars.names.count name ≤ n + 1) := by
  have hplaced := Settings.placed hl
  have hs := hr.reached.grounded hplaced (Session.openOn_grounded hl hopen)
  have hafter := hs.delete hdelete
  obtain ⟨vs, hvs, rfl⟩ := Session.set_cases hdelete
  have hrest := Variables.count_of_remove hvs
  have hcount := hr.count
  have hgone : name ∉ vs.names ↔ s₀.vars.names.count name ≤ n + 1 := by
    rw [← List.count_eq_zero]
    omega
  refine ⟨(Session.get_eq_notFound_iff _ name).trans hgone, ?_⟩
  intro s' d' huntouched op h hop hok verifyHeader reopened hflags
  have hs' := huntouched.grounded hplaced hafter
  have hreader : ({ settings with verifyHeader } : Settings).layout = .ok l := hl
  rw [Operation.run_of_header? hop] at hok ⊢
  obtain ⟨fresh, hfresh, hdegraded, hvars⟩ := hs'.reopen_committed hreader hok hflags
  refine ⟨fresh, hfresh, hdegraded, ?_⟩
  rw [hvars, ← List.count_eq_zero, huntouched.count, List.count_eq_zero]
  exact hgone

/-- A store that holds a name twice, without failures: once the name is deleted its other entry is
found, and it is what a commit writes and the next session reads. -/
theorem deletion_counts_duplicate :
    let settings : Settings := { sectors := 1 }
    let l : Layout := ⟨1, 0, 1024⟩
    let stored : Variables := .of [⟨"A", "1"⟩, ⟨"A", "2"⟩]
    let region := Region.encode stored ++ Bytes.zeros 991
    let d₀ : Memory := { contents := (Copy.stamp (.fresh 0 0 1 1) (Update.unstamped l region)).2 }
    let opened := (Session.openOn settings {} : StateM Memory _) d₀
    ∃ s₀ after, opened.1 = .ok s₀ ∧ s₀.isReadOnly = false ∧ s₀.delete "A" = .ok after ∧
      after.get "A" ≠ .error (.notFound "A") ∧
      ((Operation.commit.run after : StateM Memory _) opened.2).1.1 = .ok () ∧
      ∃ fresh, ((Session.openOn settings { readOnly := true } : StateM Memory _)
          (((Operation.commit.run after : StateM Memory _) opened.2).2.withPlan {})).1 =
            .ok fresh ∧ "A" ∈ fresh.vars.names := by
  intro settings l stored region d₀ opened
  have hl : settings.layout = .ok l := eq_ok_of_toOption (by decide +kernel)
  have hplaced := Settings.placed hl
  have hlength : region.length = l.variableSpace := by decide +kernel
  have hstorable : stored.Storable := by decide +kernel
  have hread : Region.readTolerant region = (stored, none) :=
    Region.readTolerant_encode hstorable (Bytes.zeros 991)
  have hregion : Copy.variableRegion l d₀.contents = region :=
    Update.variableRegion_stamp_unstamped hplaced (.fresh 0 0 1 1) hlength
  have hfinds : d₀.Finds l settings.verifyHeader .a _ d₀.contents :=
    Memory.finds_front hplaced rfl (UInt16.le_refl _) rfl (Update.length_unstamped hlength) rfl
  have hreads : d₀.ReadsSucceed := fun _ => rfl
  have hlimit : l.offset .b + l.copySize ≤ d₀.limit := by decide
  have hplan : ∀ n, d₀.plan.writeTears n = none := fun _ => rfl
  clear_value d₀ region
  obtain ⟨s₀, hopened, hcurrent, -, hvars, hdegraded, hwritable⟩ :=
    Session.openOn_found hl (show ({} : OpenFlags).forceInit = false from rfl) hreads hfinds
  rw [hregion, hread] at hvars hdegraded
  have hmode : s₀.mode = .writable := by
    refine hwritable.2 ⟨rfl, ?_⟩
    rw [← Bool.not_eq_true, hdegraded]
    exact fun hnone => hnone rfl
  have hopen : opened.1 = .ok s₀ := congrArg Prod.fst hopened
  have hwritable := Session.isReadOnly_eq_false.2 hmode
  let after : Session := { s₀ with vars := .of [⟨"A", "2"⟩] }
  have hdelete : s₀.delete "A" = .ok after := by
    rw [Session.delete, Session.set, if_neg (by rw [hwritable]; exact Bool.false_ne_true), hvars]
    rfl
  have hok : ((Operation.commit.run after : StateM Memory _) opened.2).1.1 = .ok () := by
    obtain ⟨-, -, -, hsame⟩ := Survey.taken l settings.verifyHeader d₀
    have hdevice : opened.2 = ((Survey.take l settings.verifyHeader : StateM Memory _) d₀).2 :=
      congrArg Prod.snd hopened
    have hafter := (Session.openOn_grounded hl hopen).delete hdelete
    have hroom : (Variables.of [⟨"A", "2"⟩]).packedSize < l.variableSpace := by decide
    refine hafter.commitWith_succeeds hplaced hmode hroom ?_ ?_ after.header
    · rw [hdevice, hsame.plan]
      exact hplan
    · rw [hdevice, hsame.limit, show after.current = .a from hcurrent]
      exact hlimit
  have htwice : ¬ s₀.vars.names.count "A" ≤ 0 + 1 := by
    rw [hvars]
    decide
  obtain ⟨hget, hnext⟩ := deletion_counts hl hopen .start hdelete
  obtain ⟨fresh, hfresh, -, hlisted⟩ :=
    hnext after opened.2 .start .commit _ rfl hok false { readOnly := true } rfl
  exact ⟨s₀, after, hopen, hwritable, hdelete, mt hget.1 htwice, hok, fresh, hfresh,
    not_not.1 (mt hlisted.1 htwice)⟩

end BootStore
