import BootStore.Proofs.Opening

/-!
# Torn header blocks

A commit that is cut off within its header block leaves the front of the new block before the rest
of the old one. From the last header field on that copy is current, whatever is missing of the
variables that lie in the block (`torn_header_block`).
-/
namespace BootStore

variable {l : Layout} {s : Session} {h : Header} {u : Update} {vs : Variables}

namespace Update

theorem length_tornCopy (hu : u.Ready l h vs) {k : Nat} {before : Bytes} (hk : k ≤ blockSize)
    (hbefore : before.length = blockSize) :
    (u.tornBlock k before ++ u.image.drop blockSize).length = l.copySize := by
  rw [List.length_append, length_tornBlock hu hk hbefore, length_image_drop hu, Layout.copySize_eq]

theorem tornBlock_eq (u : Update) {n k : Nat} (hk : n ≤ k) (before : Bytes) :
    u.tornBlock k before = u.image.take n ++ ((u.image.take k).drop n ++ before.drop k) := by
  rw [tornBlock, ← List.append_assoc]
  congr 1
  rw [← Nat.min_eq_left hk, ← List.take_take, Nat.min_eq_left hk, List.take_append_drop]

theorem headerFor_tornBlock (hu : u.Ready l h vs) {k : Nat} (hk : headerSize ≤ k) (before : Bytes) :
    Copy.headerFor l (u.tornBlock k before) = .ok u.header := by
  have hfields : headerSize ≤ (u.image.take headerSize).length := by
    have hsize := Copy.headerSize_le_blockSize
    rw [List.length_take, hu.length, Layout.copySize_eq]
    omega
  have hwhole := Copy.headerFor_of_validate (hu.valid false)
  rw [← List.take_append_drop headerSize u.image, Copy.headerFor_append l hfields] at hwhole
  rw [u.tornBlock_eq hk, Copy.headerFor_append l hfields, hwhole]

theorem headerFor_tornCopy (hu : u.Ready l h vs) {k : Nat} (hk : k ≤ blockSize) {before : Bytes}
    (hbefore : before.length = blockSize) :
    Copy.headerFor l (u.tornBlock k before ++ u.image.drop blockSize) =
      Copy.headerFor l (u.tornBlock k before) := by
  apply Copy.headerFor_append
  rw [length_tornBlock hu hk hbefore]
  exact Copy.headerSize_le_blockSize

theorem encode_of_tornBlock (hu : u.Ready l h vs) {k : Nat} (hk : k ≤ blockSize) {before : Bytes}
    (hstored : headerSize + (Region.encode vs).length ≤ k)
    (hvars : Region.encode vs <+: Copy.variableRegion l u.image) :
    Region.encode vs <+: Copy.variableRegion l
      (u.tornBlock k before ++ u.image.drop blockSize) := by
  have himage : headerSize + (Region.encode vs).length ≤ u.image.length := by
    rw [hu.length, Layout.copySize_eq]
    omega
  rw [Copy.variableRegion, Bytes.slice, List.prefix_take_iff] at hvars ⊢
  obtain ⟨hlist, hspace⟩ := hvars
  refine ⟨?_, hspace⟩
  have hfront : (u.image.take (headerSize + (Region.encode vs).length)).drop l.variableStart =
      Region.encode vs := by
    have hlen : headerSize + (Region.encode vs).length - l.variableStart =
        (Region.encode vs).length := Nat.add_sub_cancel_left _ _
    rw [List.drop_take, hlen]
    exact (List.prefix_iff_eq_take.1 hlist).symm
  rw [u.tornBlock_eq hstored, List.append_assoc, List.drop_append_of_le_length, hfront]
  · exact List.prefix_append _ _
  · rw [List.length_take, Nat.min_eq_left himage]
    exact Nat.le_add_right _ _

/-- A copy with a torn header block has the variables of its update if their list is there. -/
theorem readTolerant_tornCopy_iff (hu : u.Ready l h vs) (hvs : vs.Storable) {k : Nat}
    (hk : k ≤ blockSize) {before : Bytes} (hbefore : before.length = blockSize)
    (hvars : Region.encode vs <+: Copy.variableRegion l u.image) :
    let copy := u.tornBlock k before ++ u.image.drop blockSize
    Region.readTolerant (Copy.variableRegion l copy) = (vs, none) ↔
      Region.encode vs <+: Copy.variableRegion l copy := by
  apply Region.readTolerant_eq_iff hvs
  have hroom := hvars.length_le
  rw [Copy.length_variableRegion hu.length] at hroom
  rw [Copy.length_variableRegion (length_tornCopy hu hk hbefore)]
  exact hroom

theorem readTolerant_tornBlock (hu : u.Ready l h vs) {before : Bytes}
    (hbefore : before.length = blockSize) (hend : before.getD headerSize 0 = 0) :
    Region.readTolerant (Copy.variableRegion l
      (u.tornBlock headerSize before ++ u.image.drop blockSize)) = ({}, none) := by
  have hfields : (u.image.take headerSize).length = headerSize := by
    have hsize := Copy.headerSize_le_blockSize
    rw [List.length_take, hu.length, Layout.copySize_eq]
    omega
  have hblock := length_tornBlock hu Copy.headerSize_le_blockSize hbefore
  apply Region.readTolerant_of_head
  rw [List.headD_eq_head?_getD, List.head?_eq_getElem?, ← List.getD_eq_getElem?_getD,
    Copy.variableRegion, Bytes.getD_slice, Nat.add_zero, Bytes.getD_append, hblock, tornBlock,
    Bytes.getD_append, hfields, Bytes.getD_drop]
  have hstart : l.variableStart = headerSize := rfl
  have hinside : headerSize < blockSize := by decide
  rw [hstart, if_neg (Nat.lt_irrefl _), if_pos hinside, Nat.sub_self, Nat.add_zero, hend, ite_self]

end Update

theorem Session.Grounded.encode_of_nextUpdate (hl : l.Placed) {v : Bool} {c : Bytes}
    (hs : s.Grounded l v c) (hu : s.nextUpdate h = .ok u) :
    Region.encode s.vars <+: Copy.variableRegion l u.image := by
  rw [Session.nextUpdate, hs.layout] at hu
  exact Update.variableRegion_of_prepare hl hu

theorem Operation.contents_of_torn (hl : l.Placed) {v : Bool} {d : Memory}
    (hs : s.Grounded l v d.contents) {op : Operation} (hop : op.header? s = some h)
    (hu : s.nextUpdate h = .ok u) {o : WriteOutcome}
    (hcut : (d.since ((op.run s : StateM Memory _) d).2).map Access.outcome? =
      (u.front l s.rivalOutranks).map (fun _ => some .stored) ++ [some .stored, some o]) :
    let after := ((op.run s : StateM Memory _) d).2
    after = ((BlockDevice.writeAll (u.writes l s.rivalOutranks) : StateM Memory _) d).2 ∧
      after.contents =
        o.leave (Memory.written (Memory.written d.contents (u.front l s.rivalOutranks))
          [u.extension l]) (u.block l) := by
  obtain ⟨htarget, hready⟩ := hs.nextUpdate_ready hl hu
  simp only [Operation.run_of_header? hop] at hcut ⊢
  rcases s.commitWith_cases h d with ⟨e, he⟩ | ⟨u', -, hu', hd, -⟩
  · rw [he, Memory.since_self] at hcut
    have hlen := congrArg List.length hcut
    simp at hlen
  · rw [hu] at hu'
    cases hu'
    rw [hs.layout] at hd
    rw [hd] at hcut ⊢
    rw [Update.contents_of_outcomes hl hready hcut, Memory.written_append]
    exact ⟨rfl, rfl⟩

/-- A commit that is cut off in its header block after `k` bytes, with header blocks not checked.
The copy that this makes is current if it has a header that wins. The commit is all or nothing if
and only if such a header is its own and the packed variables are there. The header is its own once
the header fields are stored, and the variables are there once they are stored. -/
theorem torn_header_block {settings : Settings} (hl : settings.layout = .ok l)
    (hunchecked : settings.verifyHeader = false) {flags : OpenFlags} {d₀ : Memory} {s₀ : Session}
    (hopen : ((Session.openOn settings flags : StateM Memory _) d₀).1 = .ok s₀) {d : Memory}
    (hr : Reached (fun _ => True) s₀ ((Session.openOn settings flags : StateM Memory _) d₀).2 s d)
    {op : Operation} (hop : op.header? s = some h) (hu : s.nextUpdate h = .ok u) {e : Memory}
    (he : e.contents = d.contents) {k : Nat} (hk : k ≤ blockSize)
    (hcut : (e.since ((op.run s : StateM Memory _) e).2).map Access.outcome? =
      (u.front l s.rivalOutranks).map (fun _ => some .stored) ++
        [some .stored, some (.torn k)]) :
    let after := ((op.run s : StateM Memory _) e).2
    let before := l.blockOn (Memory.written d.contents (u.front l s.rivalOutranks)) u.target
    let copy := u.tornBlock k before ++ u.image.drop blockSize
    let wins (g : Header) : Prop :=
      Copy.headerFor l copy = .ok g ∧ s.current.losesTo s.header.serial g.serial = true
    (∀ g, wins g → after.Finds l false s.current.other g copy) ∧
    ((after.Finds l false s.current s.header
          (Bytes.slice d.contents (l.offset s.current) l.copySize) ∨
        after.Finds l false s.current.other u.header copy ∧
          Region.readTolerant (Copy.variableRegion l copy) = (s.vars, none)) ↔
      ∀ g, wins g → g = u.header ∧ Region.encode s.vars <+: Copy.variableRegion l copy) ∧
    (headerSize ≤ k → wins u.header) ∧
    (headerSize + (Region.encode s.vars).length ≤ k →
      Region.encode s.vars <+: Copy.variableRegion l copy) := by
  have hplaced := Settings.placed hl
  have hs := hr.grounded hplaced (Session.openOn_grounded hl hopen)
  rw [hunchecked, ← he] at hs
  obtain ⟨htarget, hready⟩ := hs.nextUpdate_ready hplaced hu
  obtain ⟨hafter, hleft⟩ := op.contents_of_torn hplaced hs hop hu hcut
  obtain ⟨hkept, hslice⟩ := hs.stored_writeAll hplaced htarget hready s.rivalOutranks
  rw [← hafter] at hkept hslice
  intro after before copy wins
  rw [he] at hleft hslice
  have hbefore : before.length = blockSize := Bytes.length_window _ _ _
  have hcopy : Bytes.slice after.contents (l.offset u.target) l.copySize = copy := by
    rw [hleft]
    exact (Update.slice_torn hready hk _).2
  have hpacked := hs.encode_of_nextUpdate hplaced hu
  have hvars := Update.readTolerant_tornCopy_iff hready hs.storable hk hbefore hpacked
  have hjudged := Update.headerFor_tornCopy hready hk hbefore
  have hmade : ∀ g, Stored l false after.contents s.current.other g ↔
      Copy.headerFor l copy = .ok g := by
    intro g
    rw [hleft, ← htarget, Update.stored_torn_iff hready hk, hjudged]
    exact and_iff_left nofun
  have hfinds : ∀ g, wins g → after.Finds l false s.current.other g copy := by
    rintro g ⟨hg, hwins⟩
    rw [← hcopy, htarget]
    exact after.finds_other hkept ((hmade g).2 hg) hwins
  refine ⟨hfinds, ⟨?_, ?_⟩, ?_, ?_⟩
  · intro hwhole g hg
    have hfound := hfinds g hg
    rcases hwhole with hold | ⟨hnew, hlist⟩
    · have hslot := hold.current.symm.trans hfound.current
      exact absurd (Option.some.inj hslot).symm s.current.other_ne
    · have hheader := hfound.header.symm.trans hnew.header
      exact ⟨Option.some.inj hheader, hvars.1 hlist⟩
  · intro hown
    by_cases hex : ∃ g, wins g
    · obtain ⟨g, hg⟩ := hex
      obtain ⟨rfl, hlist⟩ := hown g hg
      exact Or.inr ⟨hfinds _ hg, hvars.2 hlist⟩
    · left
      rw [← hslice]
      apply after.finds_of_stored hkept
      intro g hg
      cases hwins : s.current.losesTo s.header.serial g.serial with
      | false => rfl
      | true => exact absurd ⟨g, (hmade g).1 hg, hwins⟩ hex
  · intro hfields
    exact ⟨hjudged.trans (Update.headerFor_tornBlock hready hfields before),
      Session.losesTo_of_ready hready⟩
  · intro hstored
    exact Update.encode_of_tornBlock hready hk hstored hpacked

/-- Copy B holds a variable and a second one is set. The commit that is cut off after the header
fields makes copy A current, and neither variable is there. -/
theorem torn_header_block_emptied :
    let l : Layout := ⟨1, 0, 1024⟩
    let settings : Settings := { sectors := 1 }
    let cut : FaultPlan := { writeTears := fun n => if n = 1 then some 20 else none }
    ∃ s₀ s d u copy, ((Session.openOn settings {} : StateM Memory _) {}).1 = .ok s₀ ∧
      Reached (fun _ => True) s₀ ((Session.openOn settings {} : StateM Memory _) {}).2 s d ∧
      s.current = .b ∧ s.vars = .of [⟨"v", "new"⟩, ⟨"w", "x"⟩] ∧
      s.nextUpdate s.header = .ok u ∧
      ((Operation.commit.run s : StateM Memory _) (d.withPlan cut)).2.Finds l false .a u.header
        copy ∧
      Region.readTolerant (Copy.variableRegion l copy) = ({}, none) := by
  intro l settings cut
  have hl : settings.layout = .ok l := eq_ok_of_toOption (by decide +kernel)
  let d₁ := ((Session.openOn settings {} : StateM Memory _) {}).2
  have hrun : (((Session.openOn settings {} : StateM Memory _) {}).1.toOption.any fun s₀ =>
      let edited := ((Operation.set "v" (some "new")).run s₀ : StateM Memory _) d₁
      let whole := (Operation.commit.run edited.1.2 : StateM Memory _) edited.2
      let again := ((Operation.set "w" (some "x")).run whole.1.2 : StateM Memory _) whole.2
      let e := again.2.withPlan cut
      let torn := (Operation.commit.run again.1.2 : StateM Memory _) e
      again.1.2.vars == .of [⟨"v", "new"⟩, ⟨"w", "x"⟩] && again.1.2.current == .b &&
        again.1.2.rivalOutranks == false && again.2.contents.getD 20 0 == 0 &&
        (again.1.2.nextUpdate again.1.2.header).toOption.isSome &&
        (e.since torn.2).map Access.outcome? == [some .stored, some (.torn 20)]) = true := by
    decide +kernel
  obtain ⟨s₀, hopen, hchecks⟩ := (Option.any_eq_true _ _).1 hrun
  simp only [Bool.and_eq_true, beq_iff_eq] at hchecks
  obtain ⟨⟨⟨⟨⟨hvars, hcurrent⟩, hrival⟩, hend⟩, hupdate⟩, hcut⟩ := hchecks
  have hopen := eq_ok_of_toOption hopen
  have hstart : Reached (fun _ => True) s₀ d₁ s₀ d₁ := .start
  have hr := ((hstart.call (.set "v" (some "new")) fun _ _ => trivial).call .commit
    fun _ _ => trivial).call (.set "w" (some "x")) fun _ _ => trivial
  obtain ⟨s, d, hr, hvars, hcurrent, hrival, hend, hupdate, hcut⟩ : ∃ s d,
      Reached (fun _ => True) s₀ d₁ s d ∧ s.vars = .of [⟨"v", "new"⟩, ⟨"w", "x"⟩] ∧
        s.current = .b ∧ s.rivalOutranks = false ∧ d.contents.getD 20 0 = 0 ∧
        (s.nextUpdate s.header).toOption.isSome = true ∧
        ((d.withPlan cut).since
          ((Operation.commit.run s : StateM Memory _) (d.withPlan cut)).2).map Access.outcome? =
            [some .stored, some (.torn 20)] :=
    ⟨_, _, hr, hvars, hcurrent, hrival, hend, hupdate, hcut⟩
  obtain ⟨u, hu⟩ := Option.isSome_iff_exists.1 hupdate
  have hu := eq_ok_of_toOption hu
  have hfront : u.front l s.rivalOutranks = [] := by
    rw [hrival]
    rfl
  obtain ⟨hfinds, -, hfields, -⟩ := torn_header_block hl rfl hopen hr
    (rfl : Operation.commit.header? s = some s.header) hu (d.contents_withPlan cut)
    (by decide : 20 ≤ blockSize) (by rw [hfront]; exact hcut)
  have hs := hr.grounded (Settings.placed hl) (Session.openOn_grounded hl hopen)
  obtain ⟨htarget, hready⟩ := hs.nextUpdate_ready (Settings.placed hl) hu
  have hfound := hfinds _ (hfields (Nat.le_refl _))
  rw [hcurrent] at hfound
  refine ⟨s₀, s, d, u, _, hopen, hr, hcurrent, hvars, hu, hfound, ?_⟩
  apply Update.readTolerant_tornBlock hready (Bytes.length_window _ _ _)
  rw [hfront, htarget, hcurrent, Bytes.getD_window, if_pos (by decide)]
  exact hend

end BootStore
