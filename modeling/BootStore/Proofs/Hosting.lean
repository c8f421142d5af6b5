import BootStore.Proofs.BootProgress
import BootStore.Proofs.FailedCommits
import BootStore.Store

/-!
# Stores on a host

A run on a host locates the store, locks it, opens its device and gives all of this back. Where
these operations succeed (`Host.Opens`, `Host.Serves`), it meets what a survey of the same bytes in
memory finds.
-/
namespace BootStore

/-- The action ends with an answer and a state of which `after` holds. -/
def Yields {σ α : Type} (action : StateM σ α) (w : σ) (after : α → σ → Prop) : Prop :=
  after (action w).1 (action w).2

namespace Yields

variable {σ α β : Type} {action : StateM σ α} {w : σ} {after : α → σ → Prop}

theorem pure {a : α} (h : after a w) : Yields (Pure.pure a) w after := h

theorem bind (h : Yields action w after) {next : α → StateM σ β} {last : β → σ → Prop}
    (hnext : ∀ a w', after a w' → Yields (next a) w' last) : Yields (action >>= next) w last :=
  hnext _ _ h

theorem bindOn {File : Type} {file : File} {action : ReaderT File (StateM σ) α}
    (h : Yields (action file) w after) {next : α → ReaderT File (StateM σ) β}
    {last : β → σ → Prop} (hnext : ∀ a w', after a w' → Yields (next a file) w' last) :
    Yields ((action >>= next) file) w last :=
  hnext _ _ h

theorem self (action : StateM σ α) (w : σ) : Yields action w fun a w' => action w = (a, w') := rfl

theorem and {more : α → σ → Prop} (h : Yields action w after) (k : Yields action w more) :
    Yields action w fun a w' => after a w' ∧ more a w' := ⟨h, k⟩

theorem imp {more : α → σ → Prop} (h : Yields action w after)
    (himp : ∀ a w', after a w' → more a w') : Yields action w more := himp _ _ h

theorem skipOn {File : Type} {file : File} {action : ReaderT File (StateM σ) α}
    {next : α → ReaderT File (StateM σ) β} {last : β → σ → Prop}
    (hnext : ∀ a w', Yields (next a file) w' last) : Yields ((action >>= next) file) w last :=
  hnext _ _

theorem map {f : α → β} {last : β → σ → Prop}
    (h : Yields action w fun a w' => last (f a) w') : Yields (f <$> action) w last := h

end Yields

/-- The store on a device with these bytes records this progress and holds these variables, all of
which can be read. -/
def Layout.Records (l : Layout) (v : Bool) (c : Bytes) (p : BootProgress) (vs : Variables) : Prop :=
  ∃ t h copy, ({ contents := c } : Memory).Finds l v t h copy ∧ h.progress = p ∧
    Region.readTolerant (Copy.variableRegion l copy) = (vs, none)

theorem Layout.records_front {l : Layout} {v : Bool} (hl : l.Placed) (ha : l.offset .a = 0)
    {h : Header} (hversion : Header.formatVersion ≤ h.version) (hsectors : h.sectors = l.sectors)
    {vs : Variables} (hvs : vs.Storable) {rest : Bytes}
    (hregion : (Region.encode vs ++ rest).length = l.variableSpace) :
    l.Records v (Copy.stamp h (Update.unstamped l (Region.encode vs ++ rest))).2 h.progress vs := by
  refine ⟨.a, _, _, Memory.finds_front hl ha hversion hsectors (Update.length_unstamped hregion)
    rfl, rfl, ?_⟩
  rw [Update.variableRegion_stamp_unstamped hl h hregion]
  exact Region.readTolerant_encode hvs rest

theorem Layout.records_packed {l : Layout} {v : Bool} (hl : l.Placed) (ha : l.offset .a = 0)
    {h : Header} (hversion : Header.formatVersion ≤ h.version) (hsectors : h.sectors = l.sectors)
    {vs : Variables} (hvs : vs.Storable) (hroom : vs.packedSize < l.variableSpace) :
    l.Records v (Copy.stamp h (Update.unstamped l (Region.encode vs ++
      Bytes.zeros (l.variableSpace - (vs.packedSize + 1))))).2 h.progress vs := by
  apply l.records_front hl ha hversion hsectors hvs
  rw [List.length_append, Region.length_encode, Bytes.length_zeros]
  omega

namespace Session

/-- A session that may write, on the copy that is found on a device with these bytes. -/
structure Live (l : Layout) (v : Bool) (s : Session) (c : Bytes) (p : BootProgress)
    (vs : Variables) : Prop where
  grounded : s.Grounded l v c
  writable : s.mode = .writable
  progress : s.header.progress = p
  vars : s.vars = vs
  finds : ({ contents := c } : Memory).Finds l v s.current s.header
    (Bytes.slice c (l.offset s.current) l.copySize)
  reads : Region.readTolerant (Copy.variableRegion l
    (Bytes.slice c (l.offset s.current) l.copySize)) = (vs, none)

variable {l : Layout} {v : Bool} {s : Session} {c : Bytes} {p : BootProgress} {vs : Variables}

theorem Live.records (hs : s.Live l v c p vs) : l.Records v c p vs :=
  ⟨s.current, s.header, _, hs.finds, hs.progress, hs.reads⟩

/-- Once its update is written, a session stands on the copy that is found then, and this copy holds
the session's variables. -/
theorem Grounded.committed_live (hl : l.Placed) (hs : s.Grounded l v c) (hmode : s.mode = .writable)
    {h : Header} {u : Update} (hu : s.nextUpdate h = .ok u) :
    (s.committed u).Live l v (Bytes.overwrite c (l.offset u.target) u.image) h.progress s.vars := by
  obtain ⟨htarget, hready⟩ := hs.nextUpdate_ready hl hu
  rw [← Update.written_writes hl hready false]
  obtain ⟨hstored, himage⟩ := Update.stored_written hready false c v
  have hother : u.target.other = s.current := by rw [htarget, Slot.other_other]
  have hkept : Stored l v (Memory.written c (u.writes l false)) u.target.other s.header := by
    have hfront := hs.stored
    rw [← hother] at hfront
    obtain ⟨hgrows, hwindow⟩ := Update.window_written_other hl hready false c
    exact hfront.of_window_eq (Nat.le_trans hfront.fits hgrows) hwindow
  have hvars : Region.readTolerant (Copy.variableRegion l (Bytes.slice
      (Memory.written c (u.writes l false)) (l.offset u.target) l.copySize)) = (s.vars, none) := by
    rw [himage, hready.reads hs.storable]
  refine ⟨⟨hs.layout, hstored, hs.storable⟩, hmode, ?_, rfl, ?_, hvars⟩
  · refine (Header.progress_congr ?_ ?_).1
    · rw [committed_header, hready.header]
      rfl
    · rw [committed_header, hready.header]
      rfl
  · apply Memory.finds_of_stored _ hstored
    intro g hg
    rw [hg.unique hkept]
    exact target_wins_of_ready htarget hready

end Session

inductive Stage (Lock File : Type) where
  | idle
  | locked (lock : Lock)
  | opened (lock : Lock) (file : File)

/-- The bytes lie in a slot, and there are some. -/
def Layout.Covers (l : Layout) (offset length : Nat) : Prop :=
  0 < length ∧ ∃ t, l.offset t ≤ offset ∧ offset + length ≤ l.offset t + l.copySize

section

variable {σ Lock File : Type} [Host (StateM σ) Lock File]

/-- The file operations succeed that a run takes to open the store, for reading only or for writing
too, and to close it. `stands` tells which states of the host go with a stage of the run and with
the bytes that the device at `path` holds. -/
structure Host.Opens (settings : Settings) (l : Layout) (path : String) (readOnly : Bool)
    (stands : Stage Lock File → Bytes → σ → Prop) : Prop where
  pathExists : ∀ {c w}, stands .idle c w →
    Yields (Host.pathExists path) w fun found w' => found = true ∧ stands .idle c w'
  makeDirectory : ∀ {c w}, stands .idle c w →
    Yields (Host.makeDirectory settings.lockDirectory) w fun made w' =>
      (made = .ok () ∨ made = .error .alreadyExists) ∧ stands .idle c w'
  tryLock : ∀ {c w}, stands .idle c w →
    Yields (Host.tryLock (Path.join settings.lockDirectory StoreLock.fileName) !readOnly) w
      fun taken w' => ∃ lock, taken = .ok (some lock) ∧ stands (.locked lock) c w'
  unlock : ∀ {lock c w}, stands (.locked lock) c w →
    Yields (Host.unlock lock) w fun _ => stands .idle c
  openDevice : ∀ {lock c w}, stands (.locked lock) c w →
    Yields (Host.openDevice path readOnly) w fun device w' =>
      ∃ file, device = .ok file ∧ stands (.opened lock file) c w'
  closeDevice : ∀ {lock file c w}, stands (.opened lock file) c w →
    Yields (Host.closeDevice file) w fun _ => stands (.locked lock) c
  readDevice : ∀ {lock file c w offset length}, stands (.opened lock file) c w →
    l.Covers offset length →
    Yields (Host.readDevice file offset length) w fun found w' =>
      (offset + length ≤ c.length ∧ found = .ok (Bytes.slice c offset length) ∨
        c.length < offset + length ∧ ∃ failure, found = .error failure) ∧
      stands (.opened lock file) c w'

/-- The file operations succeed that a run takes to open the store, to write to it and to close
it. -/
structure Host.Serves (settings : Settings) (l : Layout) (path : String)
    (stands : Stage Lock File → Bytes → σ → Prop) : Prop
    extends Host.Opens settings l path false stands where
  readFront : ∀ {lock c w} file limit, stands (.locked lock) c w →
    Yields (Host.readFront file limit) w fun _ => stands (.locked lock) c
  writeFront : ∀ {lock c w root directory} data, settings.writeProtection = .sysfs root →
    WriteSwitch.directory? root path = some directory → stands (.locked lock) c w →
    Yields (Host.writeFront (Path.join directory "force_ro") data) w fun _ =>
      stands (.locked lock) c
  writeDevice : ∀ {lock file c w x}, stands (.opened lock file) c w →
    l.Covers x.offset x.data.length →
    Yields (Host.writeDevice file x) w fun done w' => done = .ok () ∧
      stands (.opened lock file) (Bytes.overwrite c x.offset x.data) w'

/-- What is seen of a slot is the copy that is stored there. -/
structure Sighting.Tells (l : Layout) (v : Bool) (c : Bytes) (t : Slot) (s : Sighting) :
    Prop where
  header? : ∀ h, s.header? = some h ↔ Stored l v c t h
  bytes : ∀ h, Stored l v c t h → s.bytes = Bytes.slice c (l.offset t) l.copySize

namespace Sighting

variable {l : Layout} {v : Bool} {c : Bytes} {t : Slot}

theorem tells_of_rejected {s : Sighting} (hnone : s.header? = none)
    (hstored : ∀ h, ¬ Stored l v c t h) : s.Tells l v c t := by
  refine ⟨fun h => ⟨fun hh => ?_, fun hs => absurd hs (hstored h)⟩,
    fun h hs => absurd hs (hstored h)⟩
  rw [hnone] at hh
  cases hh

theorem tells_of_short {s : Sighting} (hnone : s.header? = none)
    (hshort : c.length < l.offset t + l.copySize) : s.Tells l v c t :=
  tells_of_rejected hnone fun _ hs => Nat.not_lt_of_le hs.fits hshort

theorem tells_ofCopy (hfits : l.offset t + l.copySize ≤ c.length) :
    (ofCopy l v (Bytes.slice c (l.offset t) l.copySize)).Tells l v c t := by
  refine ⟨fun h => ⟨fun hh => ⟨hfits, eq_ok_of_toOption hh⟩, fun hs => ?_⟩, fun _ _ => rfl⟩
  rw [header?, ofCopy, hs.valid]
  rfl

end Sighting

theorem Session.ofSurvey_found {l : Layout} {v : Bool} {c : Bytes} {p : BootProgress}
    {vs : Variables} {survey : Survey} (htells : ∀ t, (survey.sighting t).Tells l v c t)
    (hstore : l.Records v c p vs) (readOnly : Bool) :
    ∃ s, Session.ofSurvey l readOnly survey = some s ∧ s.vars = vs ∧ s.isReadOnly = readOnly ∧
      (readOnly = false → s.Live l v c p vs) := by
  obtain ⟨t, h, copy, hfinds, hprogress, hreads⟩ := hstore
  have hsame : ∀ t, (survey.sighting t).header? =
      ((Memory.survey { contents := c } l v).sighting t).header? := by
    intro t
    apply Option.ext
    intro h
    rw [(htells t).header?, Memory.survey_header?_eq_some_iff]
  have hcurrent := (Survey.current?_congr hsame).trans hfinds.current
  have hheader := (hsame t).trans hfinds.header
  have hstored := ((htells t).header? h).1 hheader
  have hcopy : Bytes.slice c (l.offset t) l.copySize = copy := by
    rw [← hfinds.bytes]
    exact (Memory.survey_bytes { contents := c } hstored).symm
  obtain ⟨s, hs, rfl, rfl, hbegun⟩ := Session.ofSurvey_of_current? l hcurrent hheader readOnly
  have hvars := hbegun.vars
  have hdegraded := hbegun.degraded
  rw [(htells _).bytes _ hstored, hcopy, hreads] at hvars hdegraded
  have hwhole : s.isDegraded = false := by
    rw [← Bool.not_eq_true, hdegraded]
    exact fun h => h rfl
  refine ⟨s, hs, hvars, ?_, ?_⟩
  · rw [Bool.eq_iff_iff, hbegun.isReadOnly_iff, hwhole]
    simp
  · intro hwriter
    have hstorable : s.vars.Storable := by
      rw [hvars, ← congrArg Prod.fst hreads]
      exact Region.storable_readTolerant _
    rw [← hcopy] at hfinds hreads
    exact ⟨⟨hbegun.layout, hstored, hstorable⟩, hbegun.writable.2 ⟨hwriter, hwhole⟩, hprogress,
      hvars, hfinds, hreads⟩

namespace Host.Opens

variable {settings : Settings} {l : Layout} {path : String} {readOnly : Bool}
  {stands : Stage Lock File → Bytes → σ → Prop} {lock : Lock} {file : File} {c : Bytes} {w : σ}

theorem readRegion (hs : Host.Opens settings l path readOnly stands) {offset length : Nat}
    (hw : stands (.opened lock file) c w) (hcovers : l.Covers offset length) :
    Yields ((BlockDevice.readRegion offset length : ReaderT File (StateM σ) _) file) w
      fun found w' =>
        (offset + length ≤ c.length ∧ found = .ok (Bytes.slice c offset length) ∨
          c.length < offset + length ∧ ∃ failure, found = .error failure) ∧
        stands (.opened lock file) c w' :=
  hs.readDevice hw hcovers

theorem sighting (hs : Host.Opens settings l path readOnly stands) (hl : l.Placed) (v : Bool)
    (t : Slot) (hw : stands (.opened lock file) c w) :
    Yields ((Sighting.take l v t : ReaderT File (StateM σ) _) file) w fun s w' =>
      s.Tells l v c t ∧ stands (.opened lock file) c w' := by
  have hsector := hl.sectorSize_le
  have hsize := l.copySize_eq
  have hend : l.extensionOffset t + l.extensionSize = l.offset t + l.copySize := by
    rw [Layout.extensionOffset, hsize, Nat.add_assoc]
  simp only [sectorSize] at hsector
  have hblock : l.Covers (l.offset t) blockSize := ⟨by decide, t, Nat.le_refl _, by omega⟩
  have hextension : l.Covers (l.extensionOffset t) l.extensionSize :=
    ⟨by omega, t, Nat.le_add_right _ _, Nat.le_of_eq hend⟩
  unfold Sighting.take
  refine (hs.readRegion hw hblock).bindOn ?_
  rintro _ w₁ ⟨⟨hfits, rfl⟩ | ⟨hshort, failure, rfl⟩, hw₁⟩
  · have hslice : Bytes.slice c (l.offset t) blockSize = l.blockOn c t :=
      Bytes.slice_eq_window hfits
    rw [hslice]
    cases hheader : Copy.headerFor l (l.blockOn c t) with
    | error why =>
      simp only [hheader]
      refine Yields.pure ⟨Sighting.tells_of_rejected rfl ?_, hw₁⟩
      intro h hstored
      rw [hstored.headerFor_block] at hheader
      cases hheader
    | ok h =>
      simp only [hheader]
      refine (hs.readRegion hw₁ hextension).bindOn ?_
      rintro _ w₂ ⟨⟨hfits', rfl⟩ | ⟨hshort, failure, rfl⟩, hw₂⟩
      · have hcopy : l.blockOn c t ++ Bytes.slice c (l.extensionOffset t) l.extensionSize =
            Bytes.slice c (l.offset t) l.copySize := by
          rw [Bytes.slice_eq_window hfits', Bytes.slice_eq_window (by omega), hsize,
            Bytes.window_append]
          rfl
        simp only [hcopy]
        exact Yields.pure ⟨Sighting.tells_ofCopy (by omega), hw₂⟩
      · exact Yields.pure ⟨Sighting.tells_of_short rfl (by omega), hw₂⟩
  · exact Yields.pure ⟨Sighting.tells_of_short rfl (by omega), hw₁⟩

theorem survey (hs : Host.Opens settings l path readOnly stands) (hl : l.Placed) (v : Bool)
    (hw : stands (.opened lock file) c w) :
    Yields ((Survey.take l v : ReaderT File (StateM σ) _) file) w fun survey w' =>
      (∀ t, (survey.sighting t).Tells l v c t) ∧ stands (.opened lock file) c w' := by
  refine (hs.sighting hl v .a hw).bindOn ?_
  rintro a w₁ ⟨ha, hw₁⟩
  refine (hs.sighting hl v .b hw₁).bindOn ?_
  rintro b w₂ ⟨hb, hw₂⟩
  refine Yields.pure ⟨?_, hw₂⟩
  intro t
  cases t with
  | a => exact ha
  | b => exact hb

theorem locate (hs : Host.Opens settings l path readOnly stands)
    (hdevice : settings.devices.head? = some path) (hw : stands .idle c w) :
    Yields (Store.locate settings.devices) w fun found w' =>
      found = .ok path ∧ stands .idle c w' := by
  obtain ⟨rest, hrest⟩ : ∃ rest, settings.devices = path :: rest := by
    cases hd : settings.devices with
    | nil =>
      rw [hd] at hdevice
      cases hdevice
    | cons first rest =>
      rw [hd] at hdevice
      cases hdevice
      exact ⟨rest, rfl⟩
  have hfirst : Yields (Store.locate? settings.devices : StateM σ _) w fun found w' =>
      found = some path ∧ stands .idle c w' := by
    rw [hrest, Store.locate?]
    refine (hs.pathExists hw).bind ?_
    rintro _ w₁ ⟨rfl, hw₁⟩
    exact Yields.pure ⟨rfl, hw₁⟩
  refine hfirst.bind ?_
  rintro _ w₁ ⟨rfl, hw₁⟩
  exact Yields.pure ⟨rfl, hw₁⟩

theorem acquire (hs : Host.Opens settings l path readOnly stands) (hw : stands .idle c w) :
    Yields (StoreLock.acquire settings.lockDirectory !readOnly) w fun taken w' =>
      ∃ lock : StoreLock Lock, taken = .ok lock ∧ stands (.locked lock.handle) c w' := by
  unfold StoreLock.acquire
  refine (hs.makeDirectory hw).bind ?_
  rintro _ w₁ ⟨rfl | rfl, hw₁⟩
  · refine (hs.tryLock hw₁).bind ?_
    rintro _ w₂ ⟨lock, rfl, hw₂⟩
    exact Yields.pure ⟨_, rfl, hw₂⟩
  · refine (hs.tryLock hw₁).bind ?_
    rintro _ w₂ ⟨lock, rfl, hw₂⟩
    exact Yields.pure ⟨_, rfl, hw₂⟩

theorem begin {v : Bool} {p : BootProgress} {vs : Variables}
    (hs : Host.Opens settings l path readOnly stands) (hl : l.Placed)
    (hstore : l.Records v c p vs) (hw : stands (.opened lock file) c w) :
    Yields ((Session.begin l v { readOnly } : ReaderT File (StateM σ) _) file) w fun begun w' =>
      (∃ s, begun = .ok s ∧ s.vars = vs ∧ s.isReadOnly = readOnly ∧
        (readOnly = false → s.Live l v c p vs)) ∧ stands (.opened lock file) c w' := by
  refine (hs.survey hl v hw).bindOn ?_
  rintro survey w₁ ⟨htells, hw₁⟩
  obtain ⟨s, hbegin, hfound⟩ := Session.ofSurvey_found htells hstore readOnly
  simp only [hbegin, Bool.false_eq_true, if_false]
  exact Yields.pure ⟨⟨s, rfl, hfound⟩, hw₁⟩

theorem beginOn {v : Bool} {p : BootProgress} {vs : Variables}
    (hs : Host.Opens settings l path readOnly stands) (hl : l.Placed)
    (hstore : l.Records v c p vs) (hw : stands (.locked lock) c w) :
    Yields (Store.beginOn path l v { readOnly }) w fun begun w' =>
      ∃ file s, begun = .ok (file, s) ∧ (s.vars = vs ∧ s.isReadOnly = readOnly ∧
        (readOnly = false → s.Live l v c p vs)) ∧ stands (.opened lock file) c w' := by
  unfold Store.beginOn
  refine (hs.openDevice hw).bind ?_
  rintro _ w₁ ⟨file, rfl, hw₁⟩
  refine (hs.begin hl hstore hw₁).bind ?_
  rintro _ w₂ ⟨⟨s, rfl, hfound⟩, hw₂⟩
  exact Yields.pure ⟨file, s, rfl, hfound, hw₂⟩

theorem openReading (hs : Host.Opens settings l path true stands) (hl : settings.layout = .ok l)
    (hdevice : settings.devices.head? = some path) {p : BootProgress} {vs : Variables}
    (hstore : l.Records settings.verifyHeader c p vs) (hw : stands .idle c w) :
    Yields (Store.openConfigured settings { readOnly := true }) w fun opened w' =>
      ∃ store : Store (StateM σ) Lock File, opened = .ok store ∧ store.session.vars = vs ∧
        store.guard = none ∧ stands (.opened store.lock.handle store.file) c w' := by
  unfold Store.openConfigured Store.openWith
  simp only [hl]
  refine (hs.locate hdevice hw).bind ?_
  rintro _ w₁ ⟨rfl, hw₁⟩
  refine (hs.acquire hw₁).bind ?_
  rintro _ w₂ ⟨lock, rfl, hw₂⟩
  simp only [if_true, pure_bind]
  refine (hs.beginOn (Settings.placed hl) hstore hw₂).bind ?_
  rintro _ w₃ ⟨file, s, rfl, ⟨hvars, hclosed, -⟩, hw₃⟩
  simp only [hclosed, if_true]
  exact Yields.pure ⟨_, rfl, hvars, rfl, hw₃⟩

theorem closeReading (hs : Host.Opens settings l path readOnly stands)
    {store : Store (StateM σ) Lock File} (hguard : store.guard = none)
    (hw : stands (.opened store.lock.handle store.file) c w) :
    Yields store.close w fun _ => stands .idle c := by
  unfold Store.close
  rw [hguard]
  refine (hs.closeDevice hw).bind ?_
  rintro _ w₁ hw₁
  exact hs.unlock hw₁

end Host.Opens

namespace Host.Serves

variable {settings : Settings} {l : Layout} {path : String}
  {stands : Stage Lock File → Bytes → σ → Prop} {lock : Lock} {file : File} {c : Bytes} {w : σ}

theorem writeAll (hs : Host.Serves settings l path stands) {ws : List Write}
    (hws : ∀ x ∈ ws, l.Covers x.offset x.data.length) (hw : stands (.opened lock file) c w) :
    Yields ((BlockDevice.writeAll ws : ReaderT File (StateM σ) _) file) w fun done w' =>
      done = .ok () ∧ stands (.opened lock file) (Memory.written c ws) w' := by
  induction ws generalizing c w with
  | nil => exact Yields.pure ⟨rfl, hw⟩
  | cons x ws ih =>
    have hfirst : Yields ((BlockDevice.writeRegion x : ReaderT File (StateM σ) _) file) w _ :=
      hs.writeDevice hw (hws x List.mem_cons_self)
    refine hfirst.bindOn ?_
    rintro _ w₁ ⟨rfl, hw₁⟩
    exact ih (fun y hy => hws y (List.mem_cons_of_mem x hy)) hw₁

theorem commitUpdate {v : Bool} {s : Session} (hs : Host.Serves settings l path stands)
    (hl : l.Placed) (hgrounded : s.Grounded l v c) (hmode : s.mode = .writable) {h : Header}
    {u : Update} (hu : s.nextUpdate h = .ok u) (hw : stands (.opened lock file) c w) :
    Yields ((s.commitWith h : ReaderT File (StateM σ) _) file) w fun out w' =>
      out.1 = .ok () ∧
        out.2.Live l v (Bytes.overwrite c (l.offset u.target) u.image) h.progress s.vars ∧
        stands (.opened lock file) (Bytes.overwrite c (l.offset u.target) u.image) w' := by
  have hready := (hgrounded.nextUpdate_ready hl hu).2
  have hcovers : ∀ x ∈ u.writes l s.rivalOutranks, l.Covers x.offset x.data.length := by
    intro x hx
    obtain ⟨hne, hwithin⟩ := Update.within_of_mem_writes hl hready hx
    exact ⟨List.length_pos_iff.2 hne, u.target, hwithin.1, hwithin.2⟩
  have hopen := Session.isReadOnly_eq_false.2 hmode
  unfold Session.commitWith
  simp only [hopen, Bool.false_eq_true, if_false, hu, hgrounded.layout]
  refine (hs.writeAll hcovers hw).bindOn ?_
  rintro _ w₁ ⟨rfl, hw₁⟩
  rw [Update.written_writes hl hready] at hw₁
  exact Yields.pure ⟨rfl, hgrounded.committed_live hl hmode hu, hw₁⟩

theorem commitWith {v : Bool} {s : Session} {p : BootProgress} {vs : Variables}
    (hs : Host.Serves settings l path stands) (hl : l.Placed) (hlive : s.Live l v c p vs)
    (hroom : vs.packedSize < l.variableSpace) (h : Header) (hw : stands (.opened lock file) c w) :
    Yields ((s.commitWith h : ReaderT File (StateM σ) _) file) w fun out w' =>
      out.1 = .ok () ∧
        ∃ c', out.2.Live l v c' h.progress vs ∧ stands (.opened lock file) c' w' := by
  rw [← hlive.vars] at hroom ⊢
  obtain ⟨u, hu⟩ := hlive.grounded.nextUpdate_of_room hroom h
  obtain ⟨hok, hafter⟩ := hs.commitUpdate hl hlive.grounded hlive.writable hu hw
  exact ⟨hok, _, hafter⟩

theorem setWritable (hs : Host.Serves settings l path stands) (writable : Bool)
    (hw : stands (.locked lock) c w) :
    Yields (settings.writeProtection.switch.setWritable path writable) w fun _ =>
      stands (.locked lock) c := by
  cases hprotection : settings.writeProtection with
  | disabled => exact hw
  | sysfs root =>
    show Yields ((WriteSwitch.sysfs root).setWritable path writable) w _
    unfold WriteSwitch.sysfs
    cases hdirectory : WriteSwitch.directory? root path with
    | none =>
      simp only [hdirectory]
      exact hw
    | some directory =>
      simp only [hdirectory]
      have hstate : Yields (WriteSwitch.isWritable? directory : StateM σ _) w fun _ =>
          stands (.locked lock) c := by
        unfold WriteSwitch.isWritable?
        refine (hs.readFront _ 1 hw).bind ?_
        rintro front w₁ hw₁
        split <;> exact hw₁
      refine hstate.bind ?_
      rintro state w₁ hw₁
      cases state with
      | none => exact hw₁
      | some now =>
        by_cases hsame : now = writable
        · simp only [if_pos hsame]
          exact hw₁
        · simp only [if_neg hsame]
          exact hs.writeFront _ hprotection hdirectory hw₁

theorem enable (hs : Host.Serves settings l path stands) (hw : stands (.locked lock) c w) :
    Yields (some <$> WriteGuard.enable settings.writeProtection.switch path) w fun guard w' =>
      guard = some ⟨settings.writeProtection.switch, path, true⟩ ∧ stands (.locked lock) c w' := by
  refine Yields.map ?_
  refine (hs.setWritable true hw).bind ?_
  rintro _ w₁ hw₁
  exact Yields.pure ⟨rfl, hw₁⟩

theorem dropGuard (hs : Host.Serves settings l path stands) (hw : stands (.locked lock) c w) :
    Yields (Store.dropGuard (some ⟨settings.writeProtection.switch, path, true⟩)) w fun _ =>
      stands (.locked lock) c := by
  show Yields (WriteGuard.drop _) w _
  rw [WriteGuard.drop_of_active rfl]
  refine (hs.setWritable false hw).bind ?_
  rintro _ w₁ hw₁
  exact Yields.pure hw₁

theorem openConfigured (hs : Host.Serves settings l path stands) (hl : settings.layout = .ok l)
    (hdevice : settings.devices.head? = some path) {p : BootProgress} {vs : Variables}
    (hstore : l.Records settings.verifyHeader c p vs) (hw : stands .idle c w) :
    Yields (Store.openConfigured settings {}) w fun opened w' =>
      ∃ store : Store (StateM σ) Lock File, opened = .ok store ∧
        store.session.Live l settings.verifyHeader c p vs ∧
        store.guard = some ⟨settings.writeProtection.switch, path, true⟩ ∧
        stands (.opened store.lock.handle store.file) c w' := by
  unfold Store.openConfigured Store.openWith
  simp only [hl]
  refine (hs.toOpens.locate hdevice hw).bind ?_
  rintro _ w₁ ⟨rfl, hw₁⟩
  refine (hs.toOpens.acquire hw₁).bind ?_
  rintro _ w₂ ⟨lock, rfl, hw₂⟩
  simp only [Bool.false_eq_true, if_false]
  refine (hs.enable hw₂).bind ?_
  rintro _ w₃ ⟨rfl, hw₃⟩
  refine (hs.toOpens.beginOn (Settings.placed hl) hstore hw₃).bind ?_
  rintro _ w₄ ⟨file, s, rfl, ⟨-, hopen, hlive⟩, hw₄⟩
  simp only [hopen, Bool.false_eq_true, if_false]
  exact Yields.pure ⟨_, rfl, hlive rfl, rfl, hw₄⟩

theorem close (hs : Host.Serves settings l path stands) {store : Store (StateM σ) Lock File}
    (hguard : store.guard = some ⟨settings.writeProtection.switch, path, true⟩)
    (hw : stands (.opened store.lock.handle store.file) c w) :
    Yields store.close w fun _ => stands .idle c := by
  unfold Store.close
  rw [hguard]
  refine (hs.closeDevice hw).bind ?_
  rintro _ w₁ hw₁
  refine (hs.dropGuard hw₁).bind ?_
  rintro _ w₂ hw₂
  exact hs.unlock hw₂

end Host.Serves

end

end BootStore
