import BootStore.Proofs.Opening

/-!
# Crash isolation

A commit that does not get as far as storing its header block leaves the current copy current
(`crash_isolation`). A header that would win stands in the other slot only if the session has seen
one there, and then the next commit clears it first (`Session.Isolated`).
-/
namespace BootStore

namespace Access

/-- Whether a call stores a header block or a part of one. Clearing a block does not count. -/
def landsHeader (l : Layout) : Access → Bool
  | .read .. => false
  | .write w o =>
    (w.offset == l.offset .a || w.offset == l.offset .b) && w.data != Bytes.zeros blockSize &&
      o.storesAny

def headerWhole (l : Layout) : Access → Bool
  | .read .. => true
  | .write w o => !landsHeader l (.write w o) || o == .stored

end Access

/-- The header block in the slot does not win against a sibling with this serial. -/
def Layout.Quiet (l : Layout) (contents : Bytes) (t : Slot) (serial : UInt8) : Prop :=
  ∀ g, Header.decode (l.blockOn contents t) = .ok g → t.other.losesTo serial g.serial = false

theorem Layout.Headless.quiet {l : Layout} {c : Bytes} {t : Slot} (h : l.Headless c t)
    (serial : UInt8) : l.Quiet c t serial := by
  obtain ⟨e, he⟩ := h
  intro g hg
  rw [he] at hg
  cases hg

theorem Layout.headless_leave_zeros (l : Layout) (t : Slot) (c : Bytes) (o : WriteOutcome) :
    o.leave c ⟨l.offset t, Bytes.zeros blockSize⟩ = c ∨
      l.Headless (o.leave c ⟨l.offset t, Bytes.zeros blockSize⟩) t := by
  have hfront : ∀ n, 0 < n → l.Headless
      (Bytes.overwrite c (l.offset t) ((Bytes.zeros blockSize).take n)) t := by
    intro n hn
    apply Header.decode_of_head_ne
    have hlen : 0 < ((Bytes.zeros blockSize).take n).length := by
      rw [List.length_take, Bytes.length_zeros]
      simp only [blockSize]
      omega
    rw [Layout.blockOn, Bytes.getD_window, if_pos (by decide), Bytes.getD_overwrite,
      if_pos ⟨Nat.le_refl _, Nat.add_lt_add_left hlen _⟩, Bytes.getD_take, Bytes.getD_zeros, ite_self]
    decide
  cases o with
  | stored =>
    have hall := hfront blockSize (by decide)
    rw [List.take_of_length_le (Nat.le_of_eq (Bytes.length_zeros _))] at hall
    exact Or.inr hall
  | torn n =>
    by_cases hn : n = 0
    · exact Or.inl (if_pos hn)
    · right
      show l.Headless (Memory.storing c ⟨l.offset t, Bytes.zeros blockSize⟩ n) t
      rw [Memory.storing, if_neg hn]
      exact hfront n (Nat.pos_of_ne_zero hn)
  | refused => exact Or.inl rfl

namespace Update

variable {l : Layout} {u : Update} {h : Header} {vs : Variables}

theorem landsHeader_block (hu : u.Ready l h vs) (o : WriteOutcome) :
    (Access.write (u.block l) o).landsHeader l = o.storesAny := by
  have hdata : u.image.take blockSize ≠ Bytes.zeros blockSize := by
    intro hzeros
    have hdecode := (Copy.headerFor_eq_ok (Copy.headerFor_of_validate (hu.valid false))).1
    have hhead : u.image.getD 0 0 ≠ 0x42 := by
      have h0 := congrArg (fun b : Bytes => b.getD 0 0) hzeros
      simp only [Bytes.getD_take, Bytes.getD_zeros] at h0
      rw [if_pos (by decide)] at h0
      rw [h0]
      decide
    obtain ⟨e, he⟩ := Header.decode_of_head_ne hhead
    rw [he] at hdecode
    cases hdecode
  have hoffset : ∀ t : Slot, (l.offset t == l.offset .a || l.offset t == l.offset .b) = true := by
    intro t
    cases t <;> simp
  simp only [Access.landsHeader, block, hoffset, Bool.true_and]
  rw [bne_iff_ne.2 hdata, Bool.true_and]

theorem landsHeader_clearing (u : Update) (l : Layout) (o : WriteOutcome) :
    (Access.write (u.clearing l) o).landsHeader l = false := by
  have hdata : ((u.clearing l).data != Bytes.zeros blockSize) = false := by
    simp [clearing]
  rw [Access.landsHeader, hdata, Bool.and_false, Bool.false_and]

theorem landsHeader_extension (hl : l.Placed) (u : Update) (o : WriteOutcome) :
    (Access.write (u.extension l) o).landsHeader l = false := by
  have hsector := hl.sectorSize_le
  have hsize := l.copySize_eq
  have hapart := hl.apart u.target
  have hne : ∀ t : Slot, l.extensionOffset u.target ≠ l.offset t := by
    intro t heq
    rw [Layout.extensionOffset] at heq
    rcases u.target.eq_or_eq_other t with ht | ht
    · rw [ht] at heq
      simp only [blockSize] at heq
      omega
    · rw [ht, Slot.other_other] at hapart
      rw [ht] at heq
      simp only [blockSize, sectorSize] at *
      omega
  simp only [Access.landsHeader, extension]
  rw [beq_eq_false_iff_ne.2 (hne .a), beq_eq_false_iff_ne.2 (hne .b), Bool.or_false,
    Bool.false_and, Bool.false_and]

theorem landsHeader_of_error (hl : l.Placed) (hu : u.Ready l h vs) {clearFirst : Bool} {d : Memory}
    {e : IoError}
    (herr : ((BlockDevice.writeAll (u.writes l clearFirst) : StateM Memory _) d).1 = .error e)
    (hcalls : ∀ x ∈ d.since ((BlockDevice.writeAll (u.writes l clearFirst) :
      StateM Memory _) d).2, x.headerWhole l = true) :
    ∀ x ∈ d.since ((BlockDevice.writeAll (u.writes l clearFirst) : StateM Memory _) d).2,
      x.landsHeader l = false := by
  have hfront : ∀ w ∈ u.front l clearFirst, ∀ o, (Access.write w o).landsHeader l = false := by
    intro w hw o
    cases clearFirst with
    | false => cases hw
    | true =>
      rw [List.mem_singleton.1 hw]
      exact u.landsHeader_clearing l o
  rcases writeAll_writes hl hu clearFirst d with ⟨hok, -⟩ | ⟨e', o, -, ho, hwhere⟩
  · rw [hok] at herr
    cases herr
  rcases hwhere with ⟨-, -, hsince⟩ | ⟨-, hsince⟩ | ⟨-, hsince⟩
  · rw [hsince]
    intro x hx
    rw [List.mem_singleton.1 hx]
    exact u.landsHeader_clearing l o
  · rw [hsince]
    intro x hx
    rcases List.mem_append.1 hx with hx | hx
    · obtain ⟨w, hw, rfl⟩ := List.mem_map.1 hx
      exact hfront w hw .stored
    · rw [List.mem_singleton.1 hx]
      exact u.landsHeader_extension hl o
  · rw [hsince] at hcalls ⊢
    intro x hx
    rcases List.mem_append.1 hx with hmem | hmem
    · obtain ⟨w, hw, rfl⟩ := List.mem_map.1 hmem
      rcases List.mem_append.1 hw with hw | hw
      · exact hfront w hw .stored
      · rw [List.mem_singleton.1 hw]
        exact u.landsHeader_extension hl .stored
    · have hwhole := hcalls x hx
      rw [List.mem_singleton.1 hmem] at hwhole ⊢
      rw [Access.headerWhole, beq_eq_false_iff_ne.2 ho, Bool.or_false] at hwhole
      simpa using hwhole

/-- An update that stores nothing of its header block fails, and leaves the target as it was, or
with the header block that stood there if it was not to be cleared, or without a header. -/
theorem headless_writeAll (hl : l.Placed) (hu : u.Ready l h vs) {clearFirst : Bool} {d : Memory}
    (hcalls : ∀ x ∈ d.since ((BlockDevice.writeAll (u.writes l clearFirst) :
      StateM Memory _) d).2, x.landsHeader l = false) :
    let out := (BlockDevice.writeAll (u.writes l clearFirst) : StateM Memory _) d
    (∃ e, out.1 = .error e) ∧
      (out.2.contents = d.contents ∨
        clearFirst = false ∧ l.blockOn out.2.contents u.target = l.blockOn d.contents u.target ∨
        l.Headless out.2.contents u.target) := by
  -- what the block holds when the extension is written, it still holds when that is done
  have hextension : ∀ o : WriteOutcome,
      let c := o.leave (Memory.written d.contents (u.front l clearFirst)) (u.extension l)
      clearFirst = false ∧ l.blockOn c u.target = l.blockOn d.contents u.target ∨
        l.Headless c u.target := by
    intro o
    dsimp only
    rw [Layout.Headless, u.blockOn_extension l]
    cases clearFirst with
    | false => exact Or.inl ⟨rfl, rfl⟩
    | true => exact Or.inr (Layout.headless_of_zeros (u.blockOn_front l d.contents))
  rcases writeAll_writes hl hu clearFirst d with ⟨-, -, hsince⟩ | ⟨e, o, herr, ho, hwhere⟩
  · have hlands := hcalls (Write.whole (u.block l)) (by
      rw [hsince, writes_eq]
      simp)
    rw [Write.whole, landsHeader_block hu] at hlands
    cases hlands
  · refine ⟨⟨e, herr⟩, ?_⟩
    rcases hwhere with ⟨-, hc, -⟩ | ⟨hc, -⟩ | ⟨hc, hsince⟩
    · rw [hc]
      rcases l.headless_leave_zeros u.target d.contents o with hsame | hnone
      · exact Or.inl hsame
      · exact Or.inr (Or.inr hnone)
    · rw [hc]
      exact Or.inr (hextension o)
    · have hlands := hcalls (.write (u.block l) o) (by
        rw [hsince]
        simp)
      rw [landsHeader_block hu] at hlands
      rw [hc, o.leave_of_storesAny hlands, Memory.written_append]
      exact Or.inr (hextension .stored)

theorem quiet_writeAll (hl : l.Placed) (hu : u.Ready l h vs) {clearFirst : Bool} {d : Memory}
    {serial : UInt8} (hclear : clearFirst = false → l.Quiet d.contents u.target serial)
    (hcalls : ∀ x ∈ d.since ((BlockDevice.writeAll (u.writes l clearFirst) :
      StateM Memory _) d).2, x.landsHeader l = false) :
    let out := (BlockDevice.writeAll (u.writes l clearFirst) : StateM Memory _) d
    (∃ e, out.1 = .error e) ∧
      (out.2.contents = d.contents ∨ l.Quiet out.2.contents u.target serial) := by
  obtain ⟨herr, hsame | ⟨hkept, hblock⟩ | hnone⟩ := headless_writeAll hl hu hcalls
  · exact ⟨herr, Or.inl hsame⟩
  · refine ⟨herr, Or.inr ?_⟩
    rw [Layout.Quiet, hblock]
    exact hclear hkept
  · exact ⟨herr, Or.inr (hnone.quiet serial)⟩

end Update

namespace Session

/-- What keeps the current copy current until the next header block lands. -/
structure Isolated (l : Layout) (v : Bool) (s : Session) (contents : Bytes) : Prop where
  grounded : s.Grounded l v contents
  /-- The copy in the other slot, if there is one, does not win. -/
  ahead : ∀ g, Stored l v contents s.current.other g →
    s.current.losesTo s.header.serial g.serial = false
  /-- A header that would win is one that the session knows of. -/
  watched : s.rivalOutranks = false → l.Quiet contents s.current.other s.header.serial

variable {l : Layout} {v : Bool} {s : Session}

theorem Isolated.finds {d : Memory} (hs : s.Isolated l v d.contents) :
    d.Finds l v s.current s.header (Bytes.slice d.contents (l.offset s.current) l.copySize) :=
  d.finds_of_stored hs.grounded.stored hs.ahead

theorem ahead_of_quiet {c : Bytes} (h : l.Quiet c s.current.other s.header.serial) (g : Header)
    (hg : Stored l v c s.current.other g) : s.current.losesTo s.header.serial g.serial = false := by
  have hquiet := h g hg.decode_block
  rwa [Slot.other_other] at hquiet

theorem rivalOutranks_of_eq_some {g : Header} (h : s.rival = some g) :
    s.rivalOutranks = s.current.losesTo s.header.serial g.serial := by
  rw [Bool.eq_iff_iff, rivalOutranks_iff, h]
  simp

/-- What an operation leaves that stores nothing of a header block: the copy that was current, and
in the other slot what was there or a header that does not win. -/
theorem Isolated.interrupted (hl : l.Placed) {d : Memory} (hs : s.Isolated l v d.contents)
    (op : Operation)
    (hcalls : ∀ x ∈ d.since ((op.run s : StateM Memory _) d).2, x.landsHeader l = false) :
    let out := (op.run s : StateM Memory _) d
    out.1.2.current = s.current ∧ out.1.2.header = s.header ∧ out.1.2.Isolated l v out.2.contents ∧
      Bytes.slice out.2.contents (l.offset s.current) l.copySize =
        Bytes.slice d.contents (l.offset s.current) l.copySize := by
  dsimp only
  have hgrounded := op.grounded_run hl hs.grounded
  rcases op.run_cases hl hs.grounded with ⟨hd, vs, hout, hvs⟩ |
    ⟨h, u, -, htarget, hready, hd, hresult⟩
  · rw [hd, hout] at hgrounded ⊢
    exact ⟨rfl, rfl, ⟨hgrounded, hs.ahead, hs.watched⟩, rfl⟩
  · have hclear : s.rivalOutranks = false → l.Quiet d.contents u.target s.header.serial := by
      rw [htarget]
      exact hs.watched
    rw [hd] at hcalls
    obtain ⟨⟨e, herr⟩, hquiet⟩ := Update.quiet_writeAll hl hready hclear hcalls
    rcases hresult with ⟨hok, -⟩ | ⟨e, -, hout⟩
    · rw [hok] at herr
      cases herr
    have hslice := (hs.grounded.stored_writeAll hl htarget hready s.rivalOutranks).2
    rw [hd, hout] at hgrounded ⊢
    refine ⟨rfl, rfl, ⟨hgrounded, ?_, ?_⟩, hslice⟩
    · rcases hquiet with hsame | hquiet
      · rw [hsame]
        exact hs.ahead
      · rw [htarget] at hquiet
        exact ahead_of_quiet hquiet
    · -- the session takes the update's header for the one in the other slot, and that one wins
      intro hrival
      rw [rivalOutranks_of_eq_some (s := s.attempted u) rfl] at hrival
      exact absurd (hrival.symm.trans (losesTo_of_ready hready)) (by decide)

theorem Isolated.committed (hl : l.Placed) {d : Memory} (hs : s.Isolated l v d.contents)
    {h : Header} {u : Update} (htarget : u.target = s.current.other)
    (hu : u.Ready l (s.nextHeader h) s.vars)
    (hok : ((BlockDevice.writeAll (u.writes l s.rivalOutranks) : StateM Memory _) d).1 = .ok ()) :
    (s.committed u).Isolated l v
      ((BlockDevice.writeAll (u.writes l s.rivalOutranks) : StateM Memory _) d).2.contents := by
  have hother : u.target.other = s.current := by rw [htarget, Slot.other_other]
  have hwins := target_wins_of_ready htarget hu
  have hkept := (hs.grounded.stored_writeAll hl htarget hu s.rivalOutranks).1
  rw [← hother] at hkept
  have hstored := (Update.stored_of_writeAll_ok hl hu hok v).1
  refine ⟨⟨hs.grounded.layout, hstored, hs.grounded.storable⟩, ?_, ?_⟩
  · intro g hg
    rw [hg.unique hkept]
    exact hwins
  · intro _ g hg
    rw [committed_current, hkept.decode_block] at hg
    cases hg
    rw [Slot.other_other]
    exact hwins

theorem Isolated.run (hl : l.Placed) {d : Memory} (hs : s.Isolated l v d.contents) (op : Operation)
    (hcalls : ∀ x ∈ d.since ((op.run s : StateM Memory _) d).2, x.headerWhole l = true) :
    ((op.run s : StateM Memory _) d).1.2.Isolated l v
      ((op.run s : StateM Memory _) d).2.contents := by
  by_cases hlands : ∀ x ∈ d.since ((op.run s : StateM Memory _) d).2, x.landsHeader l = false
  · exact (hs.interrupted hl op hlands).2.2.1
  rcases op.run_cases hl hs.grounded with ⟨hd, -⟩ | ⟨h, u, -, htarget, hready, hd, hresult⟩
  · rw [hd, Memory.since_self] at hlands
    exact absurd nofun hlands
  · rw [hd] at hcalls hlands
    rcases hresult with ⟨hok, hout⟩ | ⟨e, herr, -⟩
    · rw [hd, hout]
      exact hs.committed hl htarget hready hok
    · exact absurd (Update.landsHeader_of_error hl hready herr hcalls) hlands

theorem openOn_isolated {settings : Settings} (hl : settings.layout = .ok l) {flags : OpenFlags}
    {d : Memory} (hreads : d.ReadsSucceed)
    (hends : ∀ t, ¬ (l.offset t < d.contents.length ∧ d.contents.length < l.offset t + blockSize))
    (h : ((openOn settings flags : StateM Memory _) d).1 = .ok s) :
    s.Isolated l settings.verifyHeader
      ((openOn settings flags : StateM Memory _) d).2.contents := by
  have hgrounded := openOn_grounded hl h
  obtain ⟨calls, htaken, -, hsame⟩ := Survey.taken l settings.verifyHeader d
  rcases openOn_cases hl h with ⟨hbegun, hafter⟩ |
    ⟨vs, u, hvs, htarget, hready, rfl, -, hcontents⟩
  · rw [hafter, hsame.contents] at hgrounded ⊢
    obtain ⟨h', hh', hwins⟩ := (Survey.current?_eq_some_iff _ _).1 hbegun.current
    rw [hbegun.header] at hh'
    cases hh'
    refine ⟨hgrounded, ?_, ?_⟩
    · intro g hg
      exact hwins g ((htaken s.current.other).header?_of_calm hreads hg)
    · intro hrival g hg
      rw [Slot.other_other]
      by_cases hread : .read (l.offset s.current.other) blockSize false ∈ calls s.current.other
      · -- the device ends before the header block, so there is none
        obtain ⟨f, -, hf⟩ := (htaken s.current.other).eq_ofBlockFailure hread
        have hbeyond : d.contents.length ≤ l.offset s.current.other := by
          have := hf.short hreads
          have := hends s.current.other
          omega
        obtain ⟨e, he⟩ := Header.decode_zeros blockSize
        rw [Layout.blockOn, Bytes.window_of_length_le blockSize hbeyond, he] at hg
        cases hg
      · have hseen := (htaken s.current.other).apparentHeader?_eq hread
        rw [← hbegun.rival, hg] at hseen
        rw [rivalOutranks_of_eq_some hseen] at hrival
        exact hrival
  · have hblank := (established_stored (Settings.placed hl) htarget hready settings.verifyHeader
      d.contents).2
    rw [hcontents] at hgrounded ⊢
    have hquiet : l.Quiet (established l u d.contents) (ofFirstUpdate l vs u).current.other
        (ofFirstUpdate l vs u).header.serial := by
      rw [ofFirstUpdate_current, htarget]
      exact (Layout.headless_of_zeros hblank).quiet _
    exact ⟨hgrounded, ahead_of_quiet hquiet, fun _ => hquiet⟩

end Session

theorem Reached.isolated {l : Layout} {v : Bool} (hl : l.Placed) {s₀ s : Session} {d₀ d : Memory}
    (h₀ : s₀.Isolated l v d₀.contents)
    (hr : Reached (fun x => x.headerWhole l = true) s₀ d₀ s d) : s.Isolated l v d.contents := by
  induction hr with
  | start => exact h₀
  | call op _ hcalls ih => exact ih.run hl op hcalls

theorem Operation.landsHeader_of_error {l : Layout} {v : Bool} (hl : l.Placed) {s : Session}
    {d : Memory} (hs : s.Grounded l v d.contents) {op : Operation} {e : StoreError}
    (herr : ((op.run s : StateM Memory _) d).1.1 = .error e)
    (hcalls : ∀ x ∈ d.since ((op.run s : StateM Memory _) d).2, x.headerWhole l = true) :
    ∀ x ∈ d.since ((op.run s : StateM Memory _) d).2, x.landsHeader l = false := by
  rcases op.run_cases hl hs with ⟨hd, -⟩ |
    ⟨h, u, -, -, hready, hd, ⟨-, hout⟩ | ⟨e', hfails, -⟩⟩
  · rw [hd, Memory.since_self]
    exact nofun
  · rw [hout] at herr
    cases herr
  · rw [hd] at hcalls ⊢
    exact Update.landsHeader_of_error hl hready hfails hcalls

/-- Crash isolation. On a store that was opened without a failing read, on a device that does not
end within a header block, after any operations whose header blocks were stored whole or not at
all: an operation that is cut off before its header block lands leaves a device on which the
session's current copy is found as it was, and so does every operation that fails. -/
theorem crash_isolation {settings : Settings} {l : Layout} (hl : settings.layout = .ok l)
    {flags : OpenFlags} {d₀ : Memory} (hreads : d₀.ReadsSucceed)
    (hends : ∀ t,
      ¬ (l.offset t < d₀.contents.length ∧ d₀.contents.length < l.offset t + blockSize))
    {s₀ : Session} (hopen : ((Session.openOn settings flags : StateM Memory _) d₀).1 = .ok s₀)
    {s : Session} {d : Memory}
    (hr : Reached (fun x => x.headerWhole l = true) s₀
      ((Session.openOn settings flags : StateM Memory _) d₀).2 s d) (op : Operation) :
    let copy := Bytes.slice d.contents (l.offset s.current) l.copySize
    d.Finds l settings.verifyHeader s.current s.header copy ∧
    (∀ e : Memory, e.contents = d.contents →
      (∀ x ∈ e.since ((op.run s : StateM Memory _) e).2, x.landsHeader l = false) →
      ((op.run s : StateM Memory _) e).2.Finds l settings.verifyHeader s.current s.header copy) ∧
    ∀ err, ((op.run s : StateM Memory _) d).1.1 = .error err →
      (∀ x ∈ d.since ((op.run s : StateM Memory _) d).2, x.headerWhole l = true) →
      let after := (op.run s : StateM Memory _) d
      after.1.2.current = s.current ∧ after.1.2.header = s.header ∧
        after.2.Finds l settings.verifyHeader s.current s.header copy := by
  have hplaced := Settings.placed hl
  have hs := hr.isolated hplaced (Session.openOn_isolated hl hreads hends hopen)
  have hcut : ∀ e : Memory, e.contents = d.contents →
      (∀ x ∈ e.since ((op.run s : StateM Memory _) e).2, x.landsHeader l = false) →
      ((op.run s : StateM Memory _) e).1.2.current = s.current ∧
        ((op.run s : StateM Memory _) e).1.2.header = s.header ∧
        ((op.run s : StateM Memory _) e).2.Finds l settings.verifyHeader s.current s.header
          (Bytes.slice d.contents (l.offset s.current) l.copySize) := by
    intro e he hcalls
    rw [← he] at hs ⊢
    obtain ⟨hcurrent, hheader, hisolated, hslice⟩ := hs.interrupted hplaced op hcalls
    have hfinds := hisolated.finds
    rw [hcurrent, hheader, hslice] at hfinds
    exact ⟨hcurrent, hheader, hfinds⟩
  refine ⟨hs.finds, fun e he hcalls => (hcut e he hcalls).2.2, ?_⟩
  intro err herr hcalls
  exact hcut d rfl (Operation.landsHeader_of_error hplaced hs.grounded herr hcalls)

/-- On a blank device, after a commit whose extension was torn: the next commit clears the header
block and is cut off in its extension. -/
theorem crash_isolation_torn :
    let l : Layout := ⟨1, 0, 1024⟩
    let settings : Settings := { sectors := 1 }
    let d₀ : Memory := { plan := { writeTears := fun n => if n = 6 then some 100 else none } }
    let cut : FaultPlan := { writeTears := fun n => if n = 1 then some 7 else none }
    ∃ s₀ s d, ((Session.openOn settings {} : StateM Memory _) d₀).1 = .ok s₀ ∧
      Reached (fun x => x.headerWhole l = true) s₀
        ((Session.openOn settings {} : StateM Memory _) d₀).2 s d ∧
      s.rivalOutranks = true ∧
      ((Operation.commit.run s : StateM Memory _) (d.withPlan cut)).2.Finds l false s.current
        s.header (Bytes.slice d.contents (l.offset s.current) l.copySize) := by
  intro l settings d₀ cut
  have hl : settings.layout = .ok l := eq_ok_of_toOption (by decide +kernel)
  have hends : ∀ t,
      ¬ (l.offset t < d₀.contents.length ∧ d₀.contents.length < l.offset t + blockSize) :=
    fun t h => Nat.not_lt_zero _ h.1
  let d₁ := ((Session.openOn settings {} : StateM Memory _) d₀).2
  have hrun : (((Session.openOn settings {} : StateM Memory _) d₀).1.toOption.any fun s₀ =>
      let out := (Operation.commit.run s₀ : StateM Memory _) d₁
      let e := out.2.withPlan cut
      (d₁.since out.2).all (·.headerWhole l) && out.1.2.rivalOutranks &&
        (e.since ((Operation.commit.run out.1.2 : StateM Memory _) e).2).all
          (!·.landsHeader l)) = true := by
    decide +kernel
  obtain ⟨s₀, hopen, hchecks⟩ := (Option.any_eq_true _ _).1 hrun
  simp only [Bool.and_eq_true, List.all_eq_true, Bool.not_eq_true'] at hchecks
  obtain ⟨⟨hwhole, hrival⟩, hcut⟩ := hchecks
  have hr := Reached.call .commit .start hwhole
  refine ⟨s₀, _, _, eq_ok_of_toOption hopen, hr, hrival, ?_⟩
  exact (crash_isolation hl (fun _ => rfl) hends (eq_ok_of_toOption hopen) hr .commit).2.1 _ rfl hcut

end BootStore
