import BootStore.Proofs.Opening

/-!
# Staged reading

A survey reads an extension only once the header block has shown that it belongs to the layout. This
comes to the same as judging the bytes of the slot at one go (`staged_survey_validates`).
-/
namespace BootStore

variable {l : Layout} {v : Bool} {s : Slot} {d e : Memory}

/-- The header of the copy in a slot, if the device holds the whole copy and its bytes are
acceptable. -/
def Layout.accepted (l : Layout) (verifyHeader : Bool) (contents : Bytes) (s : Slot) :
    Option Header :=
  if l.offset s + l.copySize ≤ contents.length then
    (Copy.validate l verifyHeader (Bytes.slice contents (l.offset s) l.copySize)).toOption
  else none

theorem Layout.accepted_eq_some_iff {c : Bytes} {h : Header} :
    l.accepted v c s = some h ↔ Stored l v c s h := by
  unfold accepted
  split
  · next hfits =>
    cases hvalid : Copy.validate l v (Bytes.slice c (l.offset s) l.copySize) with
    | error why =>
      refine iff_of_false nofun ?_
      rintro ⟨-, hok⟩
      rw [hvalid] at hok
      cases hok
    | ok g =>
      constructor
      · rintro ⟨⟩
        exact ⟨hfits, hvalid⟩
      · rintro ⟨-, hok⟩
        rw [hvalid] at hok
        cases hok
        rfl
  · next hshort => exact iff_of_false nofun fun hs => hshort hs.fits

/-- Devices of one kind and one length that hold the same bytes in a slot. No read of them fails but
for their length. -/
structure Memory.AlikeIn (l : Layout) (s : Slot) (d e : Memory) : Prop where
  reads : d.ReadsSucceed
  reads' : e.ReadsSucceed
  partialReads : d.partialReads = e.partialReads
  length : d.contents.length = e.contents.length
  bytes : ∀ i, l.offset s ≤ i → i < l.offset s + l.copySize →
    d.contents.getD i 0 = e.contents.getD i 0

namespace Memory.AlikeIn

theorem read (h : AlikeIn l s d e) {offset length : Nat} (hfrom : l.offset s ≤ offset)
    (hto : offset + length ≤ l.offset s + l.copySize) :
    (d.read offset length).1 = (e.read offset length).1 := by
  unfold Memory.read
  have hslice : Bytes.slice d.contents offset length = Bytes.slice e.contents offset length :=
    Bytes.slice_congr h.length fun i hlo hhi => h.bytes i (by omega) (by omega)
  simp only [h.reads _, h.reads' _, h.length, h.partialReads, hslice, Bool.false_eq_true, if_false]
  split <;> rfl

theorem after (h : AlikeIn l s d e) {d' e' : Memory} (hd : d.SameButCalls d')
    (he : e.SameButCalls e') : AlikeIn l s d' e' := by
  constructor
  · exact hd.readsSucceed_iff.2 h.reads
  · exact he.readsSucceed_iff.2 h.reads'
  · rw [hd.partialReads, he.partialReads, h.partialReads]
  · rw [hd.contents, he.contents, h.length]
  · rw [hd.contents, he.contents]
    exact h.bytes

end Memory.AlikeIn

/-- What is seen of a slot is decided by its own bytes and the length of the device. -/
theorem Sighting.take_congr (h : d.AlikeIn l s e) :
    ((take l v s : StateM Memory _) d).1 = ((take l v s : StateM Memory _) e).1 := by
  have hsize := l.copySize_eq
  have hfirst : (d.read (l.offset s) blockSize).1 = (e.read (l.offset s) blockSize).1 :=
    h.read (Nat.le_refl _) (by omega)
  have hafter := h.after (d.sameButCalls_read (l.offset s) blockSize)
    (e.sameButCalls_read (l.offset s) blockSize)
  -- both reads stay within the slot, so the devices answer them alike
  have hstart : l.offset s ≤ l.extensionOffset s := Nat.le_add_right _ _
  have hend : l.extensionOffset s + l.extensionSize ≤ l.offset s + l.copySize := by
    rw [Layout.extensionOffset]
    omega
  have hsecond := hafter.read hstart hend
  rw [take_apply, take_apply]
  simp only [hfirst]
  cases (e.read (l.offset s) blockSize).1 with
  | error f => rfl
  | ok block =>
    cases hblock : Copy.headerFor l block with
    | error why => simp only [hblock]
    | ok g =>
      simp only [hblock, hsecond]
      cases ((e.read (l.offset s) blockSize).2.read (l.extensionOffset s) l.extensionSize).1 <;> rfl

theorem Survey.sighting_take (hreads : d.ReadsSucceed) (s : Slot) :
    ((take l v : StateM Memory _) d).1.sighting s =
      ((Sighting.take l v s : StateM Memory _) d).1 := by
  cases s with
  | a => rfl
  | b =>
    obtain ⟨-, -, -, hsame⟩ := Sighting.taken l v .a d
    have halike : d.AlikeIn l .b d := ⟨hreads, hreads, rfl, rfl, fun _ _ _ => rfl⟩
    exact Sighting.take_congr (halike.after hsame ⟨rfl, rfl, rfl, rfl⟩)

theorem Sighting.Taken.extension_mem_iff {c : Bytes} {calm mute : Prop} {σ : Sighting}
    {calls : List Access} (ht : Taken l v c calm mute s σ calls) (hcalm : calm) :
    (∃ ok, .read (l.extensionOffset s) l.extensionSize ok ∈ calls) ↔
      l.offset s + blockSize ≤ c.length ∧
        ∃ h, Header.decode (Bytes.slice c (l.offset s) blockSize) = .ok h ∧
          h.sectors = l.sectors := by
  have hapart : l.extensionOffset s ≠ l.offset s := by
    rw [Layout.extensionOffset, blockSize]
    omega
  cases ht with
  | blockFailed hf =>
    apply iff_of_false
    · simp [hapart]
    · rintro ⟨hfits, -⟩
      exact Nat.not_le_of_lt (hf.short hcalm) hfits
  | foreign why hfits hblock =>
    apply iff_of_false
    · simp [hapart]
    · rintro ⟨-, h, hdecode, hsectors⟩
      rw [Bytes.slice_eq_window hfits] at hdecode
      have hfor : Copy.headerFor l (l.blockOn c s) = .ok h := by
        rw [Copy.headerFor, Layout.blockOn, hdecode]
        exact if_pos hsectors
      rw [hfor] at hblock
      cases hblock
  | extensionFailed h hfits hblock =>
    rw [Bytes.slice_eq_window hfits]
    exact iff_of_true ⟨false, by simp⟩ ⟨hfits, h, Copy.headerFor_eq_ok hblock⟩
  | whole h hfits hblock =>
    have hsize := l.copySize_eq
    rw [Bytes.slice_eq_window (by omega)]
    exact iff_of_true ⟨true, by simp⟩ ⟨by omega, h, Copy.headerFor_eq_ok hblock⟩

/-- Surveying in stages is validating at one go. On every device whose reads do not fail, the copies
that a survey accepts are those that are there as a whole and acceptable, with the header and the
bytes that they have there, and the newest of these is current. No byte of the other copy has a part
in what is seen of a slot, and the slot's extension is read if and only if its header block is there,
holds a header and counts as many sectors as the layout. -/
theorem staged_survey_validates {settings : Settings} (hl : settings.layout = .ok l) (v : Bool)
    (hreads : d.ReadsSucceed) :
    let out := (Survey.take l v : StateM Memory _) d
    (∀ s, (out.1.sighting s).header? = l.accepted v d.contents s) ∧
    (∀ s h, l.accepted v d.contents s = some h →
      (out.1.sighting s).bytes = Bytes.slice d.contents (l.offset s) l.copySize) ∧
    out.1.current? = Slot.newer ((l.accepted v d.contents .a).map (·.serial))
      ((l.accepted v d.contents .b).map (·.serial)) ∧
    (∀ (s : Slot) (e : Memory), e.ReadsSucceed → e.partialReads = d.partialReads →
      e.contents.length = d.contents.length →
      (∀ i, ¬ (l.offset s.other ≤ i ∧ i < l.offset s.other + l.copySize) →
        e.contents[i]? = d.contents[i]?) →
      ((Survey.take l v : StateM Memory _) e).1.sighting s = out.1.sighting s) ∧
    ∀ s, (∃ ok, .read (l.extensionOffset s) l.extensionSize ok ∈ d.since out.2) ↔
      l.offset s + blockSize ≤ d.contents.length ∧
        ∃ h, Header.decode (Bytes.slice d.contents (l.offset s) blockSize) = .ok h ∧
          h.sectors = l.sectors := by
  intro out
  have hplaced := Settings.placed hl
  obtain ⟨calls, htaken, hlog, -⟩ := Survey.taken l v d
  have hheader : ∀ s, (out.1.sighting s).header? = l.accepted v d.contents s := by
    intro s
    apply Option.ext
    intro h
    rw [Layout.accepted_eq_some_iff]
    exact ⟨fun hh => ((htaken s).header?_eq_some hh).1, (htaken s).header?_of_calm hreads⟩
  refine ⟨hheader, ?_, ?_, ?_, ?_⟩
  · intro s h hh
    rw [← hheader s] at hh
    exact ((htaken s).header?_eq_some hh).2.1
  · rw [← hheader .a, ← hheader .b]
    rfl
  · intro s e hreads' hkind hlength hbytes
    rw [Survey.sighting_take hreads', show out.1.sighting s = _ from Survey.sighting_take hreads s]
    refine Sighting.take_congr ⟨hreads', hreads, hkind, hlength, ?_⟩
    intro i hlo hhi
    have hapart := hplaced.apart s
    rw [List.getD_eq_getElem?_getD, List.getD_eq_getElem?_getD, hbytes i (by omega)]
  · intro s
    rw [Memory.since_of_log_eq hlog, ← (htaken s).extension_mem_iff hreads]
    exact exists_congr fun ok => Survey.mem_calls_iff hplaced htaken ⟨ok, Or.inr rfl⟩

/-- The device ends within copy B, whose header outranks copy A's: the extension of copy B is asked
for and not had, and copy A is current. -/
theorem staged_survey_validates_short :
    let settings : Settings := { sectors := 1 }
    let l : Layout := ⟨1, 0, 1024⟩
    let copy := (Copy.stamp (.fresh 0 0 1 1) (Bytes.zeros l.copySize)).2
    let d : Memory := { contents := copy ++ ((Header.fresh 0 0 2 1).encode ++ Bytes.zeros 600) }
    let out := (Survey.take l true : StateM Memory _) d
    settings.layout = .ok l ∧ d.ReadsSucceed ∧ out.1.current? = some .a ∧
      out.1.a.bytes = copy ∧ out.1.b.header? = none ∧
      ∃ ok, .read (l.extensionOffset .b) l.extensionSize ok ∈ d.since out.2 := by
  intro settings l copy d out
  have hl : settings.layout = .ok l := eq_ok_of_toOption (by decide +kernel)
  have hplaced := Settings.placed hl
  have hreads : d.ReadsSucceed := fun _ => rfl
  have hblank : (Bytes.zeros l.copySize).length = l.copySize := Bytes.length_zeros _
  have hsize : l.copySize = 1024 := by decide
  have hcopy : copy.length = 1024 :=
    (Copy.length_stamp (by rw [hblank]; decide)).trans (hblank.trans hsize)
  obtain ⟨h, ha⟩ : ∃ h, l.accepted true d.contents .a = some h :=
    ⟨_, Layout.accepted_eq_some_iff.2
      (Stored.front hplaced rfl (UInt16.le_refl _) rfl hblank _)⟩
  obtain ⟨hheader, hbytes, hcurrent, -, hextension⟩ := staged_survey_validates hl true hreads
  have hcontents : d.contents = copy ++ ((Header.fresh 0 0 2 1).encode ++ Bytes.zeros 600) := rfl
  -- the bytes of copy A are not looked at from here on
  clear_value d copy
  have hlength : d.contents.length = 1644 := by
    rw [hcontents, List.length_append, List.length_append, hcopy, Header.length_encode,
      Bytes.length_zeros, headerSize]
  have hb : l.accepted true d.contents .b = none := by
    apply if_neg
    rw [hlength]
    decide
  have hblock : Bytes.slice d.contents (l.offset .b) blockSize =
      (Header.fresh 0 0 2 1).encode ++ Bytes.zeros 492 := by
    rw [hcontents, Bytes.slice, show l.offset .b = 1024 from rfl, List.drop_left' hcopy]
    decide +kernel
  refine ⟨hl, hreads, ?_, ?_, (hheader .b).trans hb,
    (hextension .b).2 ⟨?_, .fresh 0 0 2 1, ?_, rfl⟩⟩
  · rw [hcurrent, ha, hb]
    rfl
  · refine (hbytes .a _ ha).trans ?_
    rw [hcontents, Bytes.slice, show l.offset .a = 0 from rfl, List.drop_zero, hsize]
    exact List.take_left' hcopy
  · rw [hlength]
    decide
  · rw [hblock]
    exact Header.decode_encode (UInt16.le_refl _) _

end BootStore
