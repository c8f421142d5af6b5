import BootStore.Proofs.RoundTrip
import BootStore.Proofs.Stamp
import BootStore.Proofs.Surveying
import BootStore.Session.Commit

/-!
# Updates

What a prepared update is (`Update.prepare_ready`), where its writes may go wrong and what they
leave then (`Update.writeAll_writes`), and that a whole update is a stored copy beside which the
other slot keeps what it held.
-/
namespace BootStore

variable {l : Layout} {v : Bool} {c : Bytes} {s : Slot}

namespace Update

def extension (u : Update) (l : Layout) : Write :=
  ⟨l.extensionOffset u.target, u.image.drop blockSize⟩

def block (u : Update) (l : Layout) : Write := ⟨l.offset u.target, u.image.take blockSize⟩

def tornBlock (u : Update) (k : Nat) (before : Bytes) : Bytes := u.image.take k ++ before.drop k

def front (u : Update) (l : Layout) (clearFirst : Bool) : List Write :=
  if clearFirst then [u.clearing l] else []

@[simp] theorem clearing_offset (u : Update) (l : Layout) :
    (u.clearing l).offset = l.offset u.target := rfl

@[simp] theorem extension_offset (u : Update) (l : Layout) :
    (u.extension l).offset = l.offset u.target + blockSize := rfl

@[simp] theorem block_offset (u : Update) (l : Layout) :
    (u.block l).offset = l.offset u.target := rfl

@[simp] theorem length_clearing (u : Update) (l : Layout) :
    (u.clearing l).data.length = blockSize := Bytes.length_zeros _

theorem writes_eq (u : Update) (l : Layout) (clearFirst : Bool) :
    u.writes l clearFirst = u.front l clearFirst ++ [u.extension l, u.block l] := by
  cases clearFirst <;> rfl

theorem eq_of_mem_writes {u : Update} {clearFirst : Bool} {w : Write}
    (hw : w ∈ u.writes l clearFirst) : w = u.clearing l ∨ w = u.extension l ∨ w = u.block l := by
  rw [writes_eq, front] at hw
  cases clearFirst with
  | false =>
    right
    simpa using hw
  | true => simpa using hw

/-- An update made ready for a layout: its image is a copy that every survey accepts, with the
header `h` but for the checksum, and that holds the variables. -/
structure Ready (u : Update) (l : Layout) (h : Header) (vs : Variables) : Prop where
  header : u.header = { h with checksum := u.header.checksum }
  length : u.image.length = l.copySize
  valid : ∀ v, Copy.validate l v u.image = .ok u.header
  reads : vs.Storable → Region.readTolerant (Copy.variableRegion l u.image) = (vs, none)

def unstamped (l : Layout) (region : Bytes) : Bytes :=
  Bytes.overwrite (Bytes.zeros l.copySize) l.variableStart region

theorem length_unstamped {region : Bytes} (h : region.length = l.variableSpace) :
    (unstamped l region).length = l.copySize := by
  have hend := l.variables_le
  rw [unstamped, Bytes.length_overwrite, Bytes.length_zeros, h]
  omega

theorem stampable_unstamped (hl : l.Placed) {region : Bytes}
    (h : region.length = l.variableSpace) :
    blockSize + checksumSize ≤ (unstamped l region).length := by
  have hsector := hl.sectorSize_le
  rw [length_unstamped h, Layout.copySize_eq]
  simp only [checksumSize, sectorSize] at *
  omega

theorem prepare_eq_ok {target : Slot} {h : Header} {vs : Variables} {u : Update}
    (hp : prepare l target h vs = .ok u) :
    ∃ rest, (Region.encode vs ++ rest).length = l.variableSpace ∧
      u = ⟨target, (Copy.stamp h (unstamped l (Region.encode vs ++ rest))).1,
        (Copy.stamp h (unstamped l (Region.encode vs ++ rest))).2⟩ := by
  unfold prepare at hp
  split at hp
  · cases hp
  next n region hwrite =>
  obtain ⟨rest, hregion, hlen⟩ := Region.write_eq_ok hwrite
  rw [Bytes.length_zeros] at hlen
  subst hregion
  exact ⟨rest, hlen, (Except.ok.inj hp).symm⟩

theorem prepare_cases (l : Layout) (target : Slot) (h : Header) (vs : Variables) :
    (vs.packedSize < l.variableSpace ∧ ∃ u, prepare l target h vs = .ok u) ∨
      (l.variableSpace ≤ vs.packedSize ∧ prepare l target h vs =
        .error (.sizeExceeded (.region (vs.packedSize + 1) l.variableSpace))) := by
  have hlen := Region.length_encode vs
  by_cases hfits : vs.packedSize < l.variableSpace
  · have hroom : ¬ l.variableSpace < vs.packedSize + 1 := by omega
    refine Or.inl ⟨hfits, ?_⟩
    simp only [prepare, Region.write, Bytes.length_zeros, hlen, if_neg hroom]
    exact ⟨_, rfl⟩
  · have hfull : l.variableSpace < vs.packedSize + 1 := by omega
    refine Or.inr ⟨by omega, ?_⟩
    simp only [prepare, Region.write, Bytes.length_zeros, hlen, if_pos hfull]

theorem variableRegion_stamp_unstamped (hl : l.Placed) (h : Header) {region : Bytes}
    (hregion : region.length = l.variableSpace) :
    Copy.variableRegion l (Copy.stamp h (unstamped l region)).2 = region := by
  have hvars := Bytes.slice_overwrite (Bytes.zeros l.copySize) l.variableStart region
  rw [hregion] at hvars
  rw [Copy.variableRegion_stamp h (stampable_unstamped hl hregion) (length_unstamped hregion),
    Copy.variableRegion, unstamped, hvars]

theorem variableRegion_of_prepare (hl : l.Placed) {target : Slot} {h : Header} {vs : Variables}
    {u : Update} (hp : prepare l target h vs = .ok u) :
    Region.encode vs <+: Copy.variableRegion l u.image := by
  obtain ⟨rest, hregion, rfl⟩ := prepare_eq_ok hp
  exact ⟨rest, (variableRegion_stamp_unstamped hl h hregion).symm⟩

theorem prepare_ready (hl : l.Placed) {target : Slot} {h : Header} {vs : Variables} {u : Update}
    (hv : Header.formatVersion ≤ h.version) (hs : h.sectors = l.sectors)
    (hp : prepare l target h vs = .ok u) : u.target = target ∧ u.Ready l h vs := by
  obtain ⟨tail, hvars⟩ := variableRegion_of_prepare hl hp
  obtain ⟨rest, hregion, rfl⟩ := prepare_eq_ok hp
  have hsize := stampable_unstamped hl hregion
  refine ⟨rfl, rfl, ?_, fun v => Copy.validate_stamp h hsize v hv hs, ?_⟩
  · exact (Copy.length_stamp (Nat.le_trans (by decide) hsize)).trans (length_unstamped hregion)
  · intro hvs
    rw [← hvars]
    exact Region.readTolerant_encode hvs tail

section Ready

variable {u : Update} {h : Header} {vs : Variables}

theorem Ready.decode (hu : u.Ready l h vs) : Header.decode u.image = .ok u.header :=
  (Copy.headerFor_eq_ok (Copy.headerFor_of_validate (hu.valid true))).1

theorem length_image_drop (hu : u.Ready l h vs) :
    (u.image.drop blockSize).length = l.extensionSize := by
  rw [List.length_drop, hu.length, Layout.copySize_eq]
  omega

theorem length_image_take (hu : u.Ready l h vs) : (u.image.take blockSize).length = blockSize := by
  rw [List.length_take, hu.length, Layout.copySize_eq]
  omega

theorem length_extension (hu : u.Ready l h vs) : (u.extension l).data.length = l.extensionSize :=
  length_image_drop hu

theorem length_block (hu : u.Ready l h vs) : (u.block l).data.length = blockSize :=
  length_image_take hu

theorem within_of_mem_writes (hl : l.Placed) (hu : u.Ready l h vs) {clearFirst : Bool} {w : Write}
    (hw : w ∈ u.writes l clearFirst) :
    w.data ≠ [] ∧ w.Within (l.offset u.target) l.copySize := by
  have hsector : 0 < l.extensionSize := Nat.lt_of_lt_of_le (by decide) hl.sectorSize_le
  have hsize := l.copySize_eq
  rcases eq_of_mem_writes hw with rfl | rfl | rfl
  · refine ⟨List.ne_nil_of_length_pos ?_, Nat.le_refl _, ?_⟩
    · rw [length_clearing]
      decide
    · rw [length_clearing, clearing_offset]
      omega
  · refine ⟨List.ne_nil_of_length_pos ?_, Nat.le_add_right _ _, ?_⟩
    · rw [length_extension hu]
      exact hsector
    · rw [length_extension hu, extension_offset]
      omega
  · refine ⟨List.ne_nil_of_length_pos ?_, Nat.le_refl _, ?_⟩
    · rw [length_block hu]
      decide
    · rw [length_block hu, block_offset]
      omega

theorem stored_written (hu : u.Ready l h vs) (clearFirst : Bool) (c : Bytes) (v : Bool) :
    Stored l v (Memory.written c (u.writes l clearFirst)) u.target u.header ∧
      Bytes.slice (Memory.written c (u.writes l clearFirst)) (l.offset u.target) l.copySize =
        u.image := by
  rw [writes_eq, Memory.written_append]
  generalize Memory.written c (u.front l clearFirst) = c₀
  have hdrop := length_image_drop hu
  have htake := length_image_take hu
  have hsize := l.copySize_eq
  show Stored l v (Bytes.overwrite (Bytes.overwrite c₀ (l.extensionOffset u.target)
      (u.image.drop blockSize)) (l.offset u.target) (u.image.take blockSize)) _ _ ∧ _ = _
  have hfits : l.offset u.target + l.copySize ≤ (Bytes.overwrite (Bytes.overwrite c₀
      (l.extensionOffset u.target) (u.image.drop blockSize)) (l.offset u.target)
      (u.image.take blockSize)).length := by
    rw [Bytes.length_overwrite, Bytes.length_overwrite, hdrop, htake, Layout.extensionOffset]
    omega
  have hfront := Bytes.window_overwrite_self (Bytes.overwrite c₀ (l.extensionOffset u.target)
    (u.image.drop blockSize)) (l.offset u.target) (u.image.take blockSize)
  have hback := Bytes.window_overwrite_self c₀ (l.extensionOffset u.target)
    (u.image.drop blockSize)
  rw [htake] at hfront
  rw [hdrop] at hback
  have hcopy : Bytes.slice (Bytes.overwrite (Bytes.overwrite c₀ (l.extensionOffset u.target)
      (u.image.drop blockSize)) (l.offset u.target) (u.image.take blockSize))
      (l.offset u.target) l.copySize = u.image := by
    rw [Bytes.slice_eq_window hfits, hsize, Bytes.window_append, hfront,
      Bytes.window_overwrite_of_disjoint _ _ (Or.inl (Nat.le_of_eq (by rw [htake])))]
    show _ ++ Bytes.window _ (l.extensionOffset u.target) _ = _
    rw [hback, List.take_append_drop]
  exact ⟨⟨hfits, by rw [hcopy]; exact hu.valid v⟩, hcopy⟩

theorem writeAll_writes (hl : l.Placed) (hu : u.Ready l h vs) (clearFirst : Bool) (d : Memory) :
    let out := (BlockDevice.writeAll (u.writes l clearFirst) : StateM Memory _) d
    (out.1 = .ok () ∧ out.2.contents = Memory.written d.contents (u.writes l clearFirst) ∧
      d.since out.2 = (u.writes l clearFirst).map Write.whole) ∨
    ∃ e o, out.1 = .error e ∧ o ≠ .stored ∧
      ((clearFirst = true ∧ out.2.contents = o.leave d.contents (u.clearing l) ∧
          d.since out.2 = [.write (u.clearing l) o]) ∨
        (out.2.contents =
            o.leave (Memory.written d.contents (u.front l clearFirst)) (u.extension l) ∧
          d.since out.2 =
            (u.front l clearFirst).map Write.whole ++ [.write (u.extension l) o]) ∨
        (out.2.contents =
            o.leave (Memory.written d.contents (u.front l clearFirst ++ [u.extension l]))
              (u.block l) ∧
          d.since out.2 = (u.front l clearFirst ++ [u.extension l]).map Write.whole ++
            [.write (u.block l) o])) := by
  have hne : ∀ w ∈ u.writes l clearFirst, w.data ≠ [] := fun w hw =>
    (within_of_mem_writes hl hu hw).1
  rcases Memory.writeAll_cases _ hne d with ⟨hr, hc, hlog⟩ |
    ⟨e, done, w, rest, o, hws, hr, ho, hc, hlog⟩
  · exact Or.inl ⟨hr, hc, Memory.since_of_log_eq hlog⟩
  · refine Or.inr ⟨e, o, hr, ho, ?_⟩
    have hsince := Memory.since_of_log_eq hlog
    -- the failing write is one of the three
    have hwhere : (clearFirst = true ∧ done = [] ∧ w = u.clearing l) ∨
        (done = u.front l clearFirst ∧ w = u.extension l) ∨
        (done = u.front l clearFirst ++ [u.extension l] ∧ w = u.block l) := by
      rw [writes_eq, front] at hws
      rw [front]
      cases clearFirst with
      | false =>
        rcases done with _ | ⟨x, _ | ⟨y, done⟩⟩
        · simp at hws
          exact Or.inr (Or.inl ⟨rfl, hws.1.symm⟩)
        · simp at hws
          exact Or.inr (Or.inr ⟨by rw [hws.1]; rfl, hws.2.1.symm⟩)
        · simp at hws
      | true =>
        rcases done with _ | ⟨x, _ | ⟨y, _ | ⟨z, done⟩⟩⟩
        · simp at hws
          exact Or.inl ⟨rfl, rfl, hws.1.symm⟩
        · simp at hws
          exact Or.inr (Or.inl ⟨by rw [hws.1]; rfl, hws.2.1.symm⟩)
        · simp at hws
          exact Or.inr (Or.inr ⟨by rw [hws.1, hws.2.1]; rfl, hws.2.2.1.symm⟩)
        · simp at hws
    rcases hwhere with ⟨htrue, rfl, rfl⟩ | ⟨rfl, rfl⟩ | ⟨rfl, rfl⟩
    · exact Or.inl ⟨htrue, hc, hsince⟩
    · exact Or.inr (Or.inl ⟨hc, hsince⟩)
    · exact Or.inr (Or.inr ⟨hc, hsince⟩)

theorem since_writes (hl : l.Placed) (hu : u.Ready l h vs) {clearFirst : Bool} {d : Memory}
    (hok : ((BlockDevice.writeAll (u.writes l clearFirst) : StateM Memory _) d).1 = .ok ()) :
    d.since ((BlockDevice.writeAll (u.writes l clearFirst) : StateM Memory _) d).2 =
      (u.writes l clearFirst).map Write.whole := by
  rcases writeAll_writes hl hu clearFirst d with ⟨-, -, hsince⟩ | ⟨e, -, herr, -⟩
  · exact hsince
  · rw [herr] at hok
    cases hok

theorem blockOn_leave_other (hl : l.Placed) (hu : u.Ready l h vs) {clearFirst : Bool} {w : Write}
    (hw : w ∈ u.writes l clearFirst) (c : Bytes) (o : WriteOutcome) :
    l.blockOn (o.leave c w) u.target.other = l.blockOn c u.target.other := by
  have hwithin := (within_of_mem_writes hl hu hw).2
  have hstart := hwithin.1
  have hends := hwithin.2
  have hsize := l.copySize_eq
  have hapart := hl.apart u.target
  apply o.window_leave_of_disjoint
  omega

theorem blockOn_writeAll_other (hl : l.Placed) (hu : u.Ready l h vs) (clearFirst : Bool)
    (d : Memory) :
    l.blockOn ((BlockDevice.writeAll (u.writes l clearFirst) : StateM Memory _) d).2.contents
      u.target.other = l.blockOn d.contents u.target.other := by
  refine Memory.writeAll_induction
    (P := fun c => l.blockOn c u.target.other = l.blockOn d.contents u.target.other)
    (fun w hw => (within_of_mem_writes hl hu hw).1) ?_ rfl
  intro w hw c o hc
  exact (blockOn_leave_other hl hu hw c o).trans hc

/-- However a write of an update ends, it leaves the other slot alone and does not shrink the
device. -/
theorem window_leave_other (hl : l.Placed) (hu : u.Ready l h vs) {clearFirst : Bool} {w : Write}
    (hw : w ∈ u.writes l clearFirst) (c : Bytes) (o : WriteOutcome) :
    c.length ≤ (o.leave c w).length ∧
      Bytes.window (o.leave c w) (l.offset u.target.other) l.copySize =
        Bytes.window c (l.offset u.target.other) l.copySize := by
  have hwithin := (within_of_mem_writes hl hu hw).2
  have hstart := hwithin.1
  have hends := hwithin.2
  have hapart := hl.apart u.target
  refine ⟨o.length_le_leave c w, ?_⟩
  apply o.window_leave_of_disjoint
  omega

theorem window_written_other (hl : l.Placed) (hu : u.Ready l h vs) (clearFirst : Bool) (c : Bytes) :
    c.length ≤ (Memory.written c (u.writes l clearFirst)).length ∧
      Bytes.window (Memory.written c (u.writes l clearFirst)) (l.offset u.target.other) l.copySize =
        Bytes.window c (l.offset u.target.other) l.copySize := by
  refine Memory.written_induction (P := fun c' => c.length ≤ c'.length ∧
    Bytes.window c' (l.offset u.target.other) l.copySize =
      Bytes.window c (l.offset u.target.other) l.copySize) ?_ ⟨Nat.le_refl _, rfl⟩
  rintro w hw c' o ⟨hlen, hc⟩
  obtain ⟨hgrows, hkept⟩ := window_leave_other hl hu hw c' o
  exact ⟨Nat.le_trans hlen hgrows, hkept.trans hc⟩

theorem window_writeAll (hl : l.Placed) (hu : u.Ready l h vs) (clearFirst : Bool) (d : Memory) :
    let after := ((BlockDevice.writeAll (u.writes l clearFirst) : StateM Memory _) d).2
    d.contents.length ≤ after.contents.length ∧
      Bytes.window after.contents (l.offset u.target.other) l.copySize =
        Bytes.window d.contents (l.offset u.target.other) l.copySize := by
  refine Memory.writeAll_induction (P := fun c => d.contents.length ≤ c.length ∧
    Bytes.window c (l.offset u.target.other) l.copySize =
      Bytes.window d.contents (l.offset u.target.other) l.copySize)
    (fun w hw => (within_of_mem_writes hl hu hw).1) ?_ ⟨Nat.le_refl _, rfl⟩
  rintro w hw c o ⟨hlen, hc⟩
  obtain ⟨hgrows, hkept⟩ := window_leave_other hl hu hw c o
  exact ⟨Nat.le_trans hlen hgrows, hkept.trans hc⟩

theorem stored_writeAll (hl : l.Placed) (hu : u.Ready l h vs) (clearFirst : Bool) {d : Memory}
    {g : Header} (hs : Stored l v d.contents u.target.other g) :
    let after := ((BlockDevice.writeAll (u.writes l clearFirst) : StateM Memory _) d).2
    Stored l v after.contents u.target.other g ∧
      Bytes.slice after.contents (l.offset u.target.other) l.copySize =
        Bytes.slice d.contents (l.offset u.target.other) l.copySize := by
  obtain ⟨hlen, hwindow⟩ := window_writeAll hl hu clearFirst d
  have hfits := Nat.le_trans hs.fits hlen
  refine ⟨hs.of_window_eq hfits hwindow, ?_⟩
  rw [Bytes.slice_eq_window hfits, hwindow, Bytes.slice_eq_window hs.fits]

theorem stored_of_writeAll_ok (hl : l.Placed) (hu : u.Ready l h vs) {clearFirst : Bool} {d : Memory}
    (hok : ((BlockDevice.writeAll (u.writes l clearFirst) : StateM Memory _) d).1 = .ok ())
    (v : Bool) :
    let after := ((BlockDevice.writeAll (u.writes l clearFirst) : StateM Memory _) d).2
    Stored l v after.contents u.target u.header ∧
      Bytes.slice after.contents (l.offset u.target) l.copySize = u.image := by
  dsimp only
  rcases writeAll_writes hl hu clearFirst d with ⟨-, hc, -⟩ | ⟨e, o, herr, -⟩
  · rw [hc]
    exact stored_written hu clearFirst d.contents v
  · rw [hok] at herr
    cases herr

theorem blockOn_extension (u : Update) (l : Layout) (c : Bytes) (o : WriteOutcome) :
    l.blockOn (o.leave c (u.extension l)) u.target = l.blockOn c u.target :=
  o.window_leave_of_disjoint c (u.extension l) (Or.inr (Nat.le_refl _))

theorem length_tornBlock (hu : u.Ready l h vs) {k : Nat} {before : Bytes} (hk : k ≤ blockSize)
    (hbefore : before.length = blockSize) : (u.tornBlock k before).length = blockSize := by
  have hsize := l.copySize_eq
  rw [tornBlock, List.length_append, List.length_take, List.length_drop, hu.length, hbefore]
  omega

theorem slice_torn (hu : u.Ready l h vs) {k : Nat} (hk : k ≤ blockSize) (c : Bytes) :
    let after := (WriteOutcome.torn k).leave (Memory.written c [u.extension l]) (u.block l)
    l.offset u.target + l.copySize ≤ after.length ∧
      Bytes.slice after (l.offset u.target) l.copySize =
        u.tornBlock k (l.blockOn c u.target) ++ u.image.drop blockSize := by
  intro after
  have hdrop := length_image_drop hu
  have htake := length_image_take hu
  have hsize := l.copySize_eq
  have hfits : l.offset u.target + l.copySize ≤ after.length := by
    refine Nat.le_trans ?_ ((WriteOutcome.torn k).length_le_leave _ (u.block l))
    show _ ≤ (Bytes.overwrite c (l.extensionOffset u.target) (u.image.drop blockSize)).length
    rw [Bytes.length_overwrite, hdrop, Layout.extensionOffset]
    omega
  have hback : Bytes.window after (l.extensionOffset u.target) l.extensionSize =
      u.image.drop blockSize := by
    have hself := Bytes.window_overwrite_self c (l.extensionOffset u.target)
      (u.image.drop blockSize)
    rw [hdrop] at hself
    rw [WriteOutcome.window_leave_of_disjoint]
    · exact hself
    · left
      rw [length_block hu]
      exact Nat.le_refl _
  have hfront : l.blockOn after u.target = u.tornBlock k (l.blockOn c u.target) := by
    rw [← u.blockOn_extension l c .stored]
    by_cases hzero : k = 0
    · rw [tornBlock, hzero, List.take_zero, List.drop_zero, List.nil_append]
      show l.blockOn after u.target = l.blockOn (Memory.written c [u.extension l]) u.target
      congr 1
      exact if_pos hzero
    · have hpart : ((u.image.take blockSize).take k).length = k := by
        rw [List.length_take, htake]
        omega
      have hover := Bytes.window_overwrite_front (Memory.written c [u.extension l])
        (l.offset u.target) (Nat.le_trans (Nat.le_of_eq hpart) hk)
      rw [hpart, List.take_take, Nat.min_eq_left hk] at hover
      have hafter : after = Bytes.overwrite (Memory.written c [u.extension l])
          (l.offset u.target) (u.image.take k) := by
        refine (if_neg hzero).trans ?_
        show Bytes.overwrite _ _ ((u.image.take blockSize).take k) = _
        rw [List.take_take, Nat.min_eq_left hk]
        rfl
      rw [hafter]
      exact hover
  refine ⟨hfits, ?_⟩
  rw [Bytes.slice_eq_window hfits, hsize, Bytes.window_append]
  show l.blockOn after u.target ++ Bytes.window after (l.extensionOffset u.target) _ = _
  rw [hfront, hback]

/-- With its extension written and its header block torn, an update's target is the copy that the
torn header block makes. -/
theorem stored_torn_iff (hu : u.Ready l h vs) {k : Nat} (hk : k ≤ blockSize) (c : Bytes)
    (g : Header) :
    Stored l v ((WriteOutcome.torn k).leave (Memory.written c [u.extension l]) (u.block l))
        u.target g ↔
      Copy.headerFor l (u.tornBlock k (l.blockOn c u.target)) = .ok g ∧
        (v = true → Copy.headerIntact (u.tornBlock k (l.blockOn c u.target)) = true) := by
  obtain ⟨hfits, hcopy⟩ := slice_torn hu hk c
  have hblock := length_tornBlock hu hk (Bytes.length_window c (l.offset u.target) blockSize)
  have himage : blockSize ≤ u.image.length := by
    rw [hu.length, Layout.copySize_eq]
    omega
  have hiff := Copy.validate_append_drop (g := g) hblock himage (hu.valid v)
  constructor
  · intro hs
    have hvalid := hs.valid
    rw [hcopy] at hvalid
    exact hiff.1 hvalid
  · intro hg
    refine ⟨hfits, ?_⟩
    rw [hcopy]
    exact hiff.2 hg

theorem stored_extension_iff (hu : u.Ready l h vs) (c : Bytes) (g : Header) :
    Stored l v (Memory.written c [u.extension l]) u.target g ↔
      Copy.headerFor l (l.blockOn c u.target) = .ok g ∧
        (v = true → Copy.headerIntact (l.blockOn c u.target) = true) :=
  stored_torn_iff hu (Nat.zero_le _) c g

theorem contents_of_outcomes (hl : l.Placed) (hu : u.Ready l h vs) {clearFirst : Bool} {d : Memory}
    {o : WriteOutcome}
    (hcut : (d.since ((BlockDevice.writeAll (u.writes l clearFirst) :
      StateM Memory _) d).2).map Access.outcome? =
        (u.front l clearFirst).map (fun _ => some .stored) ++ [some .stored, some o]) :
    ((BlockDevice.writeAll (u.writes l clearFirst) : StateM Memory _) d).2.contents =
      o.leave (Memory.written d.contents (u.front l clearFirst ++ [u.extension l]))
        (u.block l) := by
  rcases writeAll_writes hl hu clearFirst d with ⟨-, hc, hsince⟩ |
    ⟨e, o', -, -, ⟨-, -, hsince⟩ | ⟨-, hsince⟩ | ⟨hc, hsince⟩⟩
  · have ho : [some WriteOutcome.stored, some .stored] = [some .stored, some o] := by
      apply List.append_cancel_left
      rw [← hcut, hsince, writes_eq, List.map_append, List.map_append, List.map_map]
      rfl
    cases ho
    rw [hc, writes_eq, Memory.written_append, Memory.written_append]
    rfl
  · rw [hsince] at hcut
    have hlen := congrArg List.length hcut
    simp at hlen
  · rw [hsince] at hcut
    have hlen := congrArg List.length hcut
    simp at hlen
  · have ho : [some WriteOutcome.stored, some o'] = [some .stored, some o] := by
      apply List.append_cancel_left
      rw [← hcut, hsince, List.map_append, List.map_append, List.map_append, List.map_map,
        List.append_assoc]
      rfl
    cases ho
    exact hc

theorem contents_of_cut (hl : l.Placed) (hu : u.Ready l h vs) {d : Memory} {o : WriteOutcome}
    (hcut : (d.since ((BlockDevice.writeAll (u.writes l false) : StateM Memory _) d).2).map
      Access.outcome? = [some .stored, some o]) (ho : o.storesAny = false) :
    ((BlockDevice.writeAll (u.writes l false) : StateM Memory _) d).2.contents =
      Memory.written d.contents [u.extension l] := by
  rw [contents_of_outcomes hl hu hcut, o.leave_of_storesAny ho]
  rfl

theorem blockOn_front (u : Update) (l : Layout) (c : Bytes) :
    l.blockOn (Memory.written c (u.front l true)) u.target = Bytes.zeros blockSize := by
  have hself := Bytes.window_overwrite_self c (l.offset u.target) (Bytes.zeros blockSize)
  rw [Bytes.length_zeros] at hself
  exact hself

theorem headless_of_cut (hl : l.Placed) (hu : u.Ready l h vs) {d : Memory} {o : WriteOutcome}
    (hcut : (d.since ((BlockDevice.writeAll (u.writes l true) : StateM Memory _) d).2).map
      Access.outcome? = [some .stored, some o]) :
    l.Headless ((BlockDevice.writeAll (u.writes l true) : StateM Memory _) d).2.contents
      u.target := by
  have hlen := congrArg List.length hcut
  rcases writeAll_writes hl hu true d with ⟨-, -, hsince⟩ |
    ⟨e, o', -, -, ⟨-, -, hsince⟩ | ⟨hc, -⟩ | ⟨-, hsince⟩⟩
  · rw [hsince] at hlen
    simp [writes, parts] at hlen
  · rw [hsince] at hlen
    simp at hlen
  · rw [hc, Layout.Headless, blockOn_extension]
    exact Layout.headless_of_zeros (u.blockOn_front l d.contents)
  · rw [hsince] at hlen
    simp [front] at hlen

end Ready

end Update

end BootStore
