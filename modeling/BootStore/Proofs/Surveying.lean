import BootStore.Proofs.Placement
import BootStore.Proofs.Ranking
import BootStore.Proofs.Stamp
import BootStore.Proofs.Writing
import BootStore.Survey

/-!
# Surveys of a memory device

What a survey finds on a device and which reads it makes, with or without failing reads
(`Sighting.Taken`). A copy that is there and acceptable is found unless a read of it fails.
-/
namespace BootStore

/-- The device holds a whole copy in the slot, and its bytes are accepted with this header. -/
structure Stored (l : Layout) (verifyHeader : Bool) (contents : Bytes) (s : Slot) (h : Header) :
    Prop where
  fits : l.offset s + l.copySize ≤ contents.length
  valid : Copy.validate l verifyHeader (Bytes.slice contents (l.offset s) l.copySize) = .ok h

/-- The bytes of the slot's header block, with zeros for those that the device does not hold. -/
def Layout.blockOn (l : Layout) (contents : Bytes) (s : Slot) : Bytes :=
  Bytes.window contents (l.offset s) blockSize

/-- What there can be to a read of this region that fails: if it is `calm`, the region reaches
beyond the end of the device, and if it is `mute`, nothing arrives. -/
structure ReadFailure.Possible (calm mute : Prop) (c : Bytes) (offset length : Nat)
    (f : ReadFailure) : Prop where
  arrived : f.arrived <+: Bytes.slice c offset length
  short : calm → c.length < offset + length
  nothing : mute → f.arrived = []

namespace Memory

def ReadsSucceed (d : Memory) : Prop := ∀ n, d.plan.readFails n = false

def BringsNothing (d : Memory) : Prop :=
  d.partialReads = false ∧ ∀ n, d.plan.readBrings n = 0

def survey (d : Memory) (l : Layout) (verifyHeader : Bool) : Survey :=
  ((Survey.take l verifyHeader : StateM Memory Survey) (d.withPlan {})).1

/-- All that a read leaves of the device but its log and its count. -/
structure SameButCalls (before after : Memory) : Prop where
  contents : after.contents = before.contents
  limit : after.limit = before.limit
  plan : after.plan = before.plan
  partialReads : after.partialReads = before.partialReads

theorem SameButCalls.trans {d₁ d₂ d₃ : Memory} (h : SameButCalls d₁ d₂) (k : SameButCalls d₂ d₃) :
    SameButCalls d₁ d₃ :=
  ⟨k.contents.trans h.contents, k.limit.trans h.limit, k.plan.trans h.plan,
    k.partialReads.trans h.partialReads⟩

theorem SameButCalls.readsSucceed_iff {d₁ d₂ : Memory} (h : SameButCalls d₁ d₂) :
    d₂.ReadsSucceed ↔ d₁.ReadsSucceed := by
  rw [ReadsSucceed, ReadsSucceed, h.plan]

theorem SameButCalls.bringsNothing_iff {d₁ d₂ : Memory} (h : SameButCalls d₁ d₂) :
    d₂.BringsNothing ↔ d₁.BringsNothing := by
  rw [BringsNothing, BringsNothing, h.plan, h.partialReads]

theorem sameButCalls_read (d : Memory) (offset length : Nat) :
    SameButCalls d (d.read offset length).2 := by
  unfold read
  split
  · exact ⟨rfl, rfl, rfl, rfl⟩
  · split <;> exact ⟨rfl, rfl, rfl, rfl⟩

theorem read_cases (d : Memory) (offset length : Nat) :
    ((d.read offset length).1 = .ok (Bytes.slice d.contents offset length) ∧
      offset + length ≤ d.contents.length ∧
      (d.read offset length).2.log = d.log ++ [.read offset length true]) ∨
    ∃ f, (d.read offset length).1 = .error f ∧
      f.Possible d.ReadsSucceed d.BringsNothing d.contents offset length ∧
      (d.read offset length).2.log = d.log ++ [.read offset length false] := by
  unfold read
  split
  next hfault =>
    refine Or.inr ⟨_, rfl, ⟨List.take_prefix _ _, ?_, ?_⟩, rfl⟩
    · intro hd
      rw [hd] at hfault
      cases hfault
    · intro hd
      dsimp only
      rw [hd.2, List.take_zero]
  · split
    next hshort =>
      refine Or.inr ⟨_, rfl, ⟨?_, fun _ => hshort, ?_⟩, rfl⟩
      · dsimp only
        split
        · exact List.prefix_rfl
        · exact List.nil_prefix
      · intro hd
        exact if_neg (Bool.eq_false_iff.1 hd.1)
    next hlong => exact Or.inl ⟨rfl, Nat.le_of_not_lt hlong, rfl⟩

end Memory

namespace Header

theorem decode_of_head_ne {bytes : Bytes} (h : bytes.getD 0 0 ≠ 0x42) :
    ∃ e, decode bytes = .error e := by
  unfold decode
  simp only
  split
  · exact ⟨_, rfl⟩
  refine ⟨_, if_pos ?_⟩
  intro hmagic
  have hhead := congrArg (fun b : Bytes => b.getD 0 0) hmagic
  simp only [Bytes.getD_take] at hhead
  exact h hhead

theorem decode_zeros (n : Nat) : ∃ e, decode (Bytes.zeros n) = .error e := by
  apply decode_of_head_ne
  rw [Bytes.getD_zeros]
  decide

end Header

variable {l : Layout} {v : Bool} {c : Bytes} {s : Slot} {h : Header}

namespace Stored

theorem headerFor_block (hs : Stored l v c s h) : Copy.headerFor l (l.blockOn c s) = .ok h := by
  have hf := Copy.headerFor_of_validate hs.valid
  rw [Bytes.slice_eq_window hs.fits, Layout.copySize_eq, Bytes.window_append,
    Copy.headerFor_append l (by rw [Bytes.length_window]; exact Copy.headerSize_le_blockSize)] at hf
  exact hf

theorem decode_block (hs : Stored l v c s h) : Header.decode (l.blockOn c s) = .ok h :=
  (Copy.headerFor_eq_ok hs.headerFor_block).1

theorem of_window_eq {c' : Bytes} (hs : Stored l v c s h)
    (hlen : l.offset s + l.copySize ≤ c'.length)
    (hw : Bytes.window c' (l.offset s) l.copySize = Bytes.window c (l.offset s) l.copySize) :
    Stored l v c' s h := by
  refine ⟨hlen, ?_⟩
  rw [Bytes.slice_eq_window hlen, hw, ← Bytes.slice_eq_window hs.fits]
  exact hs.valid

theorem unique {v' : Bool} {g : Header} (hs : Stored l v c s h) (hg : Stored l v' c s g) : h = g :=
  Except.ok.inj (hs.decode_block.symm.trans hg.decode_block)

theorem front (hl : l.Placed) (ha : l.offset .a = 0) (hversion : Header.formatVersion ≤ h.version)
    (hsectors : h.sectors = l.sectors) {raw : Bytes} (hraw : raw.length = l.copySize)
    (rest : Bytes) : Stored l v ((Copy.stamp h raw).2 ++ rest) .a (Copy.stamp h raw).1 := by
  have hsector := hl.sectorSize_le
  have hsize := l.copySize_eq
  have hlong : blockSize + checksumSize ≤ raw.length := by
    rw [hraw]
    simp only [blockSize, checksumSize, sectorSize] at *
    omega
  have hlen : (Copy.stamp h raw).2.length = l.copySize :=
    (Copy.length_stamp (Nat.le_trans (by decide) hlong)).trans hraw
  constructor
  · rw [ha, List.length_append, hlen]
    omega
  · rw [ha, Bytes.slice, List.drop_zero, List.take_left' hlen]
    exact Copy.validate_stamp h hlong v hversion hsectors

end Stored

namespace Layout

def Headless (l : Layout) (contents : Bytes) (t : Slot) : Prop :=
  ∃ e, Header.decode (l.blockOn contents t) = .error e

theorem headless_of_zeros (hzeros : l.blockOn c s = Bytes.zeros blockSize) : l.Headless c s := by
  obtain ⟨e, he⟩ := Header.decode_zeros blockSize
  exact ⟨e, by rw [hzeros, he]⟩

theorem Headless.not_stored (hnone : l.Headless c s) : ¬ Stored l v c s h := by
  obtain ⟨e, he⟩ := hnone
  intro hs
  rw [hs.decode_block] at he
  cases he

end Layout

def Layout.Reads (l : Layout) (s : Slot) (x : Access) : Prop :=
  ∃ ok, x = .read (l.offset s) blockSize ok ∨ x = .read (l.extensionOffset s) l.extensionSize ok

theorem Layout.Reads.slot_eq (hl : l.Placed) {t : Slot} {x : Access} (hs : l.Reads s x)
    (ht : l.Reads t x) : t = s := by
  rcases s.eq_or_eq_other t with rfl | rfl
  · rfl
  have hsector := hl.sectorSize_le
  have hsize := l.copySize_eq
  have hapart := hl.apart t
  simp only [blockSize, sectorSize] at hsector hsize
  obtain ⟨ok, rfl | rfl⟩ := hs
  · obtain ⟨ok', hread | hread⟩ := ht
    · simp only [Access.read.injEq] at hread
      omega
    · simp only [Access.read.injEq, Layout.extensionOffset, blockSize] at hread
      omega
  · obtain ⟨ok', hread | hread⟩ := ht
    · simp only [Access.read.injEq, Layout.extensionOffset, blockSize] at hread
      omega
    · simp only [Access.read.injEq, Layout.extensionOffset, blockSize] at hread
      omega

namespace Sighting

/-- The ways a copy can be read from contents `c`: what is seen and the calls that are made. With
`calm` no read fails but for the device's length, and with `mute` nothing arrives of one that
fails. -/
inductive Taken (l : Layout) (v : Bool) (c : Bytes) (calm mute : Prop) (s : Slot) :
    Sighting → List Access → Prop where
  | blockFailed {f : ReadFailure} (hf : f.Possible calm mute c (l.offset s) blockSize) :
      Taken l v c calm mute s (ofBlockFailure l f) [.read (l.offset s) blockSize false]
  | foreign (why : Rejection) (hfits : l.offset s + blockSize ≤ c.length)
      (hblock : Copy.headerFor l (l.blockOn c s) = .error why) :
      Taken l v c calm mute s (ofForeignBlock l (l.blockOn c s) why)
        [.read (l.offset s) blockSize true]
  | extensionFailed {f : ReadFailure} (h : Header) (hfits : l.offset s + blockSize ≤ c.length)
      (hblock : Copy.headerFor l (l.blockOn c s) = .ok h)
      (hf : f.Possible calm mute c (l.extensionOffset s) l.extensionSize) :
      Taken l v c calm mute s (ofExtensionFailure l (l.blockOn c s) f)
        [.read (l.offset s) blockSize true,
          .read (l.extensionOffset s) l.extensionSize false]
  | whole (h : Header) (hfits : l.offset s + l.copySize ≤ c.length)
      (hblock : Copy.headerFor l (l.blockOn c s) = .ok h) :
      Taken l v c calm mute s (ofCopy l v (Bytes.slice c (l.offset s) l.copySize))
        [.read (l.offset s) blockSize true,
          .read (l.extensionOffset s) l.extensionSize true]

theorem take_apply (l : Layout) (v : Bool) (s : Slot) (d : Memory) :
    (take l v s : StateM Memory _) d =
      let first := d.read (l.offset s) blockSize
      match first.1 with
      | .error f => (ofBlockFailure l f, first.2)
      | .ok block =>
        match Copy.headerFor l block with
        | .error why => (ofForeignBlock l block why, first.2)
        | .ok _ =>
          let second := first.2.read (l.extensionOffset s) l.extensionSize
          match second.1 with
          | .error f => (ofExtensionFailure l block f, second.2)
          | .ok extension => (ofCopy l v (block ++ extension), second.2) := by
  simp only [take, Memory.bind_apply, Memory.readRegion_apply]
  cases (d.read (l.offset s) blockSize).1 with
  | error f => rfl
  | ok block =>
    cases hblock : Copy.headerFor l block with
    | error why => simp only [hblock, Memory.pure_apply]
    | ok h =>
      simp only [hblock, Memory.bind_apply, Memory.readRegion_apply]
      cases ((d.read (l.offset s) blockSize).2.read (l.extensionOffset s) l.extensionSize).1 <;> rfl

theorem taken (l : Layout) (v : Bool) (s : Slot) (d : Memory) :
    ∃ calls, Taken l v d.contents d.ReadsSucceed d.BringsNothing s
        ((take l v s : StateM Memory _) d).1 calls ∧
      ((take l v s : StateM Memory _) d).2.log = d.log ++ calls ∧
      d.SameButCalls ((take l v s : StateM Memory _) d).2 := by
  have hend : l.extensionOffset s + l.extensionSize = l.offset s + l.copySize := by
    rw [Layout.extensionOffset, Layout.copySize_eq, Nat.add_assoc]
  have hsame := d.sameButCalls_read (l.offset s) blockSize
  rw [take_apply]
  rcases d.read_cases (l.offset s) blockSize with ⟨hok, hfits, hlog⟩ | ⟨f, herr, hf, hlog⟩
  · have hslice : Bytes.slice d.contents (l.offset s) blockSize = l.blockOn d.contents s :=
      Bytes.slice_eq_window hfits
    simp only [hok, hslice]
    cases hblock : Copy.headerFor l (l.blockOn d.contents s) with
    | error why => exact ⟨_, .foreign why hfits hblock, hlog, hsame⟩
    | ok h =>
      have hsame' := hsame.trans
        ((d.read (l.offset s) blockSize).2.sameButCalls_read (l.extensionOffset s) l.extensionSize)
      rcases (d.read (l.offset s) blockSize).2.read_cases (l.extensionOffset s) l.extensionSize with
        ⟨hok', hfits', hlog'⟩ | ⟨f, herr', hf, hlog'⟩
      · rw [hsame.contents] at hok' hfits'
        rw [hend] at hfits'
        have hcopy : l.blockOn d.contents s ++
            Bytes.slice d.contents (l.extensionOffset s) l.extensionSize =
            Bytes.slice d.contents (l.offset s) l.copySize := by
          rw [Bytes.slice_eq_window (by omega), Bytes.slice_eq_window hfits', Layout.copySize_eq,
            Bytes.window_append]
          rfl
        simp only [hok', hcopy]
        refine ⟨_, .whole h hfits' hblock, ?_, hsame'⟩
        rw [hlog', hlog, List.append_assoc]
        rfl
      · rw [hsame.contents, propext hsame.readsSucceed_iff, propext hsame.bringsNothing_iff] at hf
        simp only [herr']
        refine ⟨_, .extensionFailed h hfits hblock hf, ?_, hsame'⟩
        rw [hlog', hlog, List.append_assoc]
        rfl
  · simp only [herr]
    exact ⟨_, .blockFailed hf, hlog, hsame⟩

namespace Taken

variable {calm mute : Prop} {σ : Sighting} {calls : List Access}

theorem header?_eq_some (ht : Taken l v c calm mute s σ calls) (hh : σ.header? = some h) :
    Stored l v c s h ∧ σ.bytes = Bytes.slice c (l.offset s) l.copySize ∧
      ∀ offset length, .read offset length false ∉ calls := by
  cases ht with
  | blockFailed => cases hh
  | foreign => cases hh
  | extensionFailed => cases hh
  | whole g hfits hblock =>
    refine ⟨⟨hfits, ?_⟩, rfl, by simp⟩
    unfold header? ofCopy at hh
    cases hv : Copy.validate l v (Bytes.slice c (l.offset s) l.copySize) with
    | error e =>
      rw [hv] at hh
      cases hh
    | ok g' =>
      rw [hv] at hh
      cases hh
      rfl

theorem length_bytes (ht : Taken l v c calm mute s σ calls) : σ.bytes.length = l.copySize := by
  cases ht with
  | blockFailed => exact Bytes.length_resize _ _
  | foreign => exact Bytes.length_resize _ _
  | extensionFailed => exact Bytes.length_resize _ _
  | whole h hfits =>
    have hlen := Bytes.length_slice c (l.offset s) l.copySize
    exact hlen.trans (Nat.min_eq_left (by omega))

theorem header?_of_stored (ht : Taken l v c calm mute s σ calls) (hs : Stored l v c s h)
    (hread : .read (l.offset s) blockSize false ∉ calls ∧
      .read (l.extensionOffset s) l.extensionSize false ∉ calls) : σ.header? = some h := by
  cases ht with
  | blockFailed => exact absurd List.mem_cons_self hread.1
  | foreign why hfits hblock =>
    rw [hs.headerFor_block] at hblock
    cases hblock
  | extensionFailed => exact absurd (by simp) hread.2
  | whole =>
    unfold header? ofCopy
    rw [hs.valid]
    rfl

theorem header?_of_calm (ht : Taken l v c calm mute s σ calls) (hcalm : calm)
    (hs : Stored l v c s h) : σ.header? = some h := by
  have hfits := hs.fits
  cases ht with
  | blockFailed hf =>
    have := hf.short hcalm
    rw [Layout.copySize_eq] at hfits
    omega
  | foreign why _ hblock =>
    rw [hs.headerFor_block] at hblock
    cases hblock
  | extensionFailed _ _ _ hf =>
    have := hf.short hcalm
    rw [Layout.extensionOffset] at this
    rw [Layout.copySize_eq] at hfits
    omega
  | whole =>
    unfold header? ofCopy
    rw [hs.valid]
    rfl

theorem reads_of_mem (ht : Taken l v c calm mute s σ calls) {x : Access} (hx : x ∈ calls) :
    l.Reads s x := by
  cases ht with
  | blockFailed => exact ⟨false, Or.inl (List.mem_singleton.1 hx)⟩
  | foreign => exact ⟨true, Or.inl (List.mem_singleton.1 hx)⟩
  | extensionFailed =>
    rcases List.mem_cons.1 hx with rfl | hx
    · exact ⟨true, Or.inl rfl⟩
    · exact ⟨false, Or.inr (List.mem_singleton.1 hx)⟩
  | whole =>
    rcases List.mem_cons.1 hx with rfl | hx
    · exact ⟨true, Or.inl rfl⟩
    · exact ⟨true, Or.inr (List.mem_singleton.1 hx)⟩

theorem eq_ofBlockFailure (ht : Taken l v c calm mute s σ calls)
    (hread : .read (l.offset s) blockSize false ∈ calls) :
    ∃ f, σ = ofBlockFailure l f ∧ f.Possible calm mute c (l.offset s) blockSize := by
  cases ht with
  | blockFailed hf => exact ⟨_, rfl, hf⟩
  | foreign => simp at hread
  | extensionFailed =>
    simp [Layout.extensionOffset, blockSize] at hread
  | whole => simp at hread

theorem apparentHeader?_blockFailed {f : ReadFailure} (hf : f.arrived = []) :
    (ofBlockFailure l f).apparentHeader? = none := by
  have hzeros : (ofBlockFailure l f).bytes = Bytes.zeros l.copySize := by
    simp [ofBlockFailure, hf, Bytes.resize]
  obtain ⟨e, he⟩ := Header.decode_zeros l.copySize
  rw [apparentHeader?, hzeros, he]
  rfl

theorem apparentHeader?_eq (ht : Taken l v c calm mute s σ calls)
    (hread : .read (l.offset s) blockSize false ∉ calls) :
    σ.apparentHeader? = (Header.decode (l.blockOn c s)).toOption := by
  have hblock : headerSize ≤ (l.blockOn c s).length := by
    rw [Layout.blockOn, Bytes.length_window]
    exact Copy.headerSize_le_blockSize
  have hresize : ∀ rest : Bytes, ∃ rest', Bytes.resize (l.blockOn c s ++ rest) l.copySize =
      l.blockOn c s ++ rest' := by
    intro rest
    have hlen : (l.blockOn c s).length ≤ l.copySize := by
      rw [Layout.blockOn, Bytes.length_window, Layout.copySize_eq]
      omega
    exact ⟨_, by rw [Bytes.resize, List.take_append, List.take_of_length_le hlen,
      List.append_assoc]⟩
  have hbytes : ∃ rest, σ.bytes = l.blockOn c s ++ rest := by
    cases ht with
    | blockFailed => exact absurd List.mem_cons_self hread
    | foreign =>
      obtain ⟨rest, hr⟩ := hresize []
      exact ⟨rest, by rw [← hr, List.append_nil]; rfl⟩
    | extensionFailed => exact hresize _
    | whole g hfits =>
      refine ⟨Bytes.window c (l.offset s + blockSize) l.extensionSize, ?_⟩
      show Bytes.slice c (l.offset s) l.copySize = _
      rw [Bytes.slice_eq_window hfits, Layout.copySize_eq, Bytes.window_append]
      rfl
  obtain ⟨rest, hr⟩ := hbytes
  rw [apparentHeader?, hr, Header.decode_append hblock]

end Taken

end Sighting

namespace Survey

theorem current?_congr {survey other : Survey}
    (h : ∀ s, (survey.sighting s).header? = (other.sighting s).header?) :
    survey.current? = other.current? := by
  have ha := h .a
  have hb := h .b
  simp only [sighting] at ha hb
  rw [current?, current?, ha, hb]

theorem mem_calls_iff (hl : l.Placed) {calls : Slot → List Access} {calm mute : Prop}
    {σ : Slot → Sighting} (ht : ∀ s, Sighting.Taken l v c calm mute s (σ s) (calls s)) {x : Access}
    (hx : l.Reads s x) : x ∈ calls .a ++ calls .b ↔ x ∈ calls s := by
  constructor
  · intro hmem
    rcases List.mem_append.1 hmem with hmem | hmem
    · rwa [hx.slot_eq hl ((ht .a).reads_of_mem hmem)] at hmem
    · rwa [hx.slot_eq hl ((ht .b).reads_of_mem hmem)] at hmem
  · intro hmem
    cases s with
    | a => exact List.mem_append_left _ hmem
    | b => exact List.mem_append_right _ hmem

theorem write_notMem_calls {calls : Slot → List Access} {calm mute : Prop} {σ : Slot → Sighting}
    (ht : ∀ s, Sighting.Taken l v c calm mute s (σ s) (calls s)) (w : Write) (o : WriteOutcome) :
    .write w o ∉ calls .a ++ calls .b := by
  intro hx
  rcases List.mem_append.1 hx with hx | hx
  · obtain ⟨ok, hx | hx⟩ := (ht .a).reads_of_mem hx <;> cases hx
  · obtain ⟨ok, hx | hx⟩ := (ht .b).reads_of_mem hx <;> cases hx

theorem taken (l : Layout) (v : Bool) (d : Memory) :
    ∃ calls : Slot → List Access,
      (∀ s, Sighting.Taken l v d.contents d.ReadsSucceed d.BringsNothing s
        (((take l v : StateM Memory _) d).1.sighting s) (calls s)) ∧
      ((take l v : StateM Memory _) d).2.log = d.log ++ (calls .a ++ calls .b) ∧
      d.SameButCalls ((take l v : StateM Memory _) d).2 := by
  obtain ⟨first, hfirst, hlog, hsame⟩ := Sighting.taken l v .a d
  obtain ⟨second, hsecond, hlog', hsame'⟩ :=
    Sighting.taken l v .b ((Sighting.take l v .a : StateM Memory _) d).2
  refine ⟨fun s => if s = .a then first else second, ?_, ?_, hsame.trans hsame'⟩
  · intro s
    cases s with
    | a => exact hfirst
    | b =>
      rwa [hsame.contents, propext hsame.readsSucceed_iff,
        propext hsame.bringsNothing_iff] at hsecond
  · simp only [if_true, reduceCtorEq, if_false]
    rw [← List.append_assoc, ← hlog]
    exact hlog'

end Survey

namespace Memory

theorem survey_taken (d : Memory) (l : Layout) (v : Bool) (s : Slot) :
    ∃ calls, Sighting.Taken l v d.contents True (d.withPlan {}).BringsNothing s
      ((d.survey l v).sighting s) calls := by
  obtain ⟨calls, htaken, -, -⟩ := Survey.taken l v (d.withPlan {})
  have hcalm : (d.withPlan {}).ReadsSucceed ↔ True := iff_true_intro fun _ => rfl
  have h := htaken s
  rw [propext hcalm] at h
  exact ⟨calls s, h⟩

/-- Without faults a survey finds exactly the copies that are stored. -/
theorem survey_header?_eq_some_iff (d : Memory) (l : Layout) (v : Bool) (s : Slot) (h : Header) :
    ((d.survey l v).sighting s).header? = some h ↔ Stored l v d.contents s h := by
  obtain ⟨calls, htaken⟩ := d.survey_taken l v s
  exact ⟨fun hh => (htaken.header?_eq_some hh).1, htaken.header?_of_calm trivial⟩

theorem survey_bytes (d : Memory) (hs : Stored l v d.contents s h) :
    ((d.survey l v).sighting s).bytes = Bytes.slice d.contents (l.offset s) l.copySize := by
  obtain ⟨calls, htaken⟩ := d.survey_taken l v s
  exact (htaken.header?_eq_some (htaken.header?_of_calm trivial hs)).2.1

theorem header?_take {d : Memory} (hreads : d.ReadsSucceed) (s : Slot) :
    (((Survey.take l v : StateM Memory _) d).1.sighting s).header? =
      ((d.survey l v).sighting s).header? := by
  obtain ⟨calls, htaken, -⟩ := Survey.taken l v d
  cases hfound : ((d.survey l v).sighting s).header? with
  | some h =>
    exact (htaken s).header?_of_calm hreads ((d.survey_header?_eq_some_iff l v s h).1 hfound)
  | none =>
    cases hh : (((Survey.take l v : StateM Memory _) d).1.sighting s).header? with
    | none => rfl
    | some h =>
      have hstored := ((htaken s).header?_eq_some hh).1
      rw [(d.survey_header?_eq_some_iff l v s h).2 hstored] at hfound
      cases hfound

theorem current?_take {d : Memory} (hreads : d.ReadsSucceed) :
    ((Survey.take l v : StateM Memory _) d).1.current? = (d.survey l v).current? :=
  Survey.current?_congr (header?_take hreads)

/-- A survey without faults finds this copy current, with this header and these bytes. -/
structure Finds (d : Memory) (l : Layout) (v : Bool) (s : Slot) (h : Header) (copy : Bytes) :
    Prop where
  current : (d.survey l v).current? = some s
  header : ((d.survey l v).sighting s).header? = some h
  bytes : ((d.survey l v).sighting s).bytes = copy

theorem Finds.withPlan {d : Memory} {copy : Bytes} (hd : d.Finds l v s h copy) (plan : FaultPlan) :
    (d.withPlan plan).Finds l v s h copy := ⟨hd.current, hd.header, hd.bytes⟩

theorem Finds.unique {d : Memory} {t : Slot} {g : Header} {copy copy' : Bytes}
    (hd : d.Finds l v s h copy) (hd' : d.Finds l v t g copy') : s = t ∧ h = g ∧ copy = copy' := by
  have hslot := hd.current
  rw [hd'.current] at hslot
  cases hslot
  have hheader := hd.header
  rw [hd'.header] at hheader
  cases hheader
  exact ⟨rfl, rfl, hd.bytes.symm.trans hd'.bytes⟩

theorem finds_of_stored (d : Memory) (hs : Stored l v d.contents s h)
    (hother : ∀ g, Stored l v d.contents s.other g → s.losesTo h.serial g.serial = false) :
    d.Finds l v s h (Bytes.slice d.contents (l.offset s) l.copySize) := by
  have hheader := (d.survey_header?_eq_some_iff l v s h).2 hs
  refine ⟨?_, hheader, d.survey_bytes hs⟩
  refine (Survey.current?_eq_some_iff _ s).2 ⟨h, hheader, ?_⟩
  intro g hg
  exact hother g ((d.survey_header?_eq_some_iff l v s.other g).1 hg)

theorem finds_other (d : Memory) (hs : Stored l v d.contents s h) {g : Header}
    (hother : Stored l v d.contents s.other g) (hwins : s.losesTo h.serial g.serial = true) :
    d.Finds l v s.other g (Bytes.slice d.contents (l.offset s.other) l.copySize) := by
  apply d.finds_of_stored hother
  intro h' hs'
  rw [Slot.other_other] at hs'
  rw [hs'.unique hs, Slot.losesTo_other, hwins]
  rfl

theorem finds_front (hl : l.Placed) (ha : l.offset .a = 0)
    (hversion : Header.formatVersion ≤ h.version) (hsectors : h.sectors = l.sectors) {raw : Bytes}
    (hraw : raw.length = l.copySize) {d : Memory} (hd : d.contents = (Copy.stamp h raw).2) :
    d.Finds l v .a (Copy.stamp h raw).1 d.contents := by
  have hstored := Stored.front (v := v) hl ha hversion hsectors hraw []
  rw [List.append_nil, ← hd] at hstored
  have hsector := hl.sectorSize_le
  have hsize := l.copySize_eq
  have hapart := hl.apart .a
  simp only [Slot.other, blockSize, sectorSize] at hapart hsector hsize
  have hlen : d.contents.length = l.copySize := by
    rw [hd, Copy.length_stamp, hraw]
    rw [hraw, headerSize, checksumSize]
    omega
  have hslice : Bytes.slice d.contents (l.offset .a) l.copySize = d.contents := by
    rw [ha]
    exact List.take_of_length_le (Nat.le_of_eq hlen)
  have hfinds := d.finds_of_stored hstored ?_
  · rw [hslice] at hfinds
    exact hfinds
  · -- copy B would lie beyond the end of the device
    intro g hg
    have hfits := hg.fits
    simp only [Slot.other] at hfits
    omega

end Memory

end BootStore
