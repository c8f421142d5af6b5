import BootStore.Proofs.InPlace
import BootStore.Proofs.Opening

/-!
# What a commit writes

A writer keeps a buffer of each copy, and a session remembers the headers in them
(`Session.Mirrors`). What a commit writes is the encoding of its packed variables, over zeros if the
header in the target's buffer would win (`committed_copy_is_encoded`).
-/
namespace BootStore

variable {l : Layout}

abbrev Buffers : Type := Slot → Bytes

namespace Buffers

/-- What an operation makes of the buffers. A commit of a writable session fills the buffer of the
copy that is not current before it calls the device, and its writes do not change the buffer. -/
def after (b : Buffers) (s : Session) (op : Operation) : Buffers :=
  match op.header? s with
  | none => b
  | some h =>
    if s.isReadOnly then b
    else fun t =>
      if t = s.current.other then (Copy.refill s.layout (s.nextHeader h) s.vars (b t)).2 else b t

def initialized (l : Layout) (vs : Variables) : Buffers
  | .a => (Copy.refill l (.fresh 0 0 1 l.sectors) vs (Bytes.zeros l.copySize)).2
  | .b => Bytes.zeros l.copySize

/-- The buffers with which a session begins, given what was read of the copies. -/
def opened (l : Layout) (flags : OpenFlags) (survey : Survey) : Buffers :=
  match Session.initialVars? l flags survey with
  | none => fun t => (survey.sighting t).bytes
  | some vs => initialized l vs

end Buffers

/-- The sessions, devices and buffers that operations lead to. -/
inductive Kept (s₀ : Session) (d₀ : Memory) (b₀ : Buffers) : Session → Memory → Buffers → Prop where
  | start : Kept s₀ d₀ b₀ s₀ d₀ b₀
  | call {s : Session} {d : Memory} {b : Buffers} (op : Operation) : Kept s₀ d₀ b₀ s d b →
      Kept s₀ d₀ b₀ ((op.run s : StateM Memory _) d).1.2 ((op.run s : StateM Memory _) d).2
        (b.after s op)

namespace Session

/-- What a session knows of the buffers: the current copy's begins with the session's header, and
the other one with the header that the session takes for the other copy's. -/
structure Mirrors (l : Layout) (s : Session) (b : Buffers) : Prop where
  layout : s.layout = l
  length : ∀ t, (b t).length = l.copySize
  current : Header.decode (b s.current) = .ok s.header
  rival : s.rival = (Header.decode (b s.current.other)).toOption

theorem Mirrors.ofFirstUpdate (hl : l.Placed) {vs : Variables} {u : Update}
    (hu : firstUpdate l vs = .ok u) :
    (Session.ofFirstUpdate l vs u).Mirrors l (.initialized l vs) := by
  obtain ⟨htarget, hready⟩ := firstUpdate_ready hl hu
  have hfill := Copy.refill_of_prepare hu (Bytes.length_zeros l.copySize)
  have hfirst : Buffers.initialized l vs .a = u.image := congrArg Prod.snd hfill
  constructor
  · rfl
  · intro t
    cases t with
    | a => rw [hfirst, hready.length]
    | b => exact Bytes.length_zeros _
  · rw [ofFirstUpdate_current, htarget, hfirst]
    exact hready.decode
  · obtain ⟨e, he⟩ := Header.decode_zeros l.copySize
    rw [ofFirstUpdate_current, htarget]
    show none = (Header.decode (Bytes.zeros l.copySize)).toOption
    rw [he]
    rfl

theorem Mirrors.of_begun {v readOnly : Bool} {d : Memory} {s : Session}
    (hs : s.Begun l readOnly ((Survey.take l v : StateM Memory _) d).1) :
    s.Mirrors l fun t => (((Survey.take l v : StateM Memory _) d).1.sighting t).bytes := by
  obtain ⟨calls, htaken, -⟩ := Survey.taken l v d
  obtain ⟨hstored, hbytes, -⟩ := (htaken s.current).header?_eq_some hs.header
  constructor
  · exact hs.layout
  · exact fun t => (htaken t).length_bytes
  · rw [hbytes]
    exact (Copy.headerFor_eq_ok (Copy.headerFor_of_validate hstored.valid)).1
  · exact hs.rival

theorem Mirrors.of_openOn {settings : Settings} (hl : settings.layout = .ok l) {flags : OpenFlags}
    {d : Memory} {s : Session} (h : ((openOn settings flags : StateM Memory _) d).1 = .ok s) :
    s.Mirrors l
      (.opened l flags ((Survey.take l settings.verifyHeader : StateM Memory _) d).1) := by
  unfold Buffers.opened
  rcases openOn_starts hl h with ⟨hfound, hbegun, -⟩ | ⟨vs, hinit, hestablish⟩
  · rw [hfound]
    exact .of_begun hbegun
  · rw [hestablish] at h
    obtain ⟨u, hu, rfl, -⟩ := establish_ok (Settings.placed hl) h
    rw [hinit]
    exact .ofFirstUpdate (Settings.placed hl) hu

section Commit

variable {s : Session} {b b' : Buffers} {op : Operation} {h : Header}

theorem Mirrors.edit (hs : s.Mirrors l b) (vs : Variables) :
    ({ s with vars := vs } : Session).Mirrors l b := ⟨hs.layout, hs.length, hs.current, hs.rival⟩

theorem Mirrors.length_of_filled (hs : s.Mirrors l b) (hkept : b' s.current = b s.current)
    (hfilled : (b' s.current.other).length = l.copySize) (t : Slot) :
    (b' t).length = l.copySize := by
  rcases Slot.eq_or_eq_other t s.current with rfl | rfl
  · rw [hkept, hs.length]
  · exact hfilled

theorem Mirrors.stay (hs : s.Mirrors l b) (hkept : b' s.current = b s.current)
    (hfilled : (b' s.current.other).length = l.copySize) {rival : Option Header}
    (hrival : rival = (Header.decode (b' s.current.other)).toOption) :
    ({ s with rival } : Session).Mirrors l b' :=
  ⟨hs.layout, hs.length_of_filled hkept hfilled, hkept ▸ hs.current, hrival⟩

theorem Mirrors.turn (hs : s.Mirrors l b) (hkept : b' s.current = b s.current) {u : Update}
    (htarget : u.target = s.current.other)
    (hfilled : (b' s.current.other).length = l.copySize)
    (hdecode : Header.decode (b' s.current.other) = .ok u.header) :
    (s.committed u).Mirrors l b' := by
  constructor
  · exact hs.layout
  · exact hs.length_of_filled hkept hfilled
  · rw [committed_current, htarget, hdecode, committed_header]
  · rw [committed_current, htarget, Slot.other_other, hkept, hs.current]
    rfl

theorem after_target (hop : op.header? s = some h) (hmode : s.mode = .writable) :
    b.after s op s.current.other =
      (Copy.refill s.layout (s.nextHeader h) s.vars (b s.current.other)).2 := by
  simp only [Buffers.after, hop, isReadOnly_eq_false.2 hmode, Bool.false_eq_true, if_false, if_true]

theorem after_current (b : Buffers) (s : Session) (op : Operation) :
    b.after s op s.current = b s.current := by
  have hne : s.current ≠ s.current.other := s.current.other_ne.symm
  unfold Buffers.after
  cases op.header? s with
  | none => rfl
  | some h =>
    by_cases hclosed : s.isReadOnly = true
    · simp only [if_pos hclosed]
    · simp only [if_neg hclosed, if_neg hne]

/-- The target's buffer is filled with the update that is written, whatever it held. -/
theorem Mirrors.after_eq_image (hs : s.Mirrors l b) (hl : l.Placed) (hop : op.header? s = some h)
    (hmode : s.mode = .writable) {u : Update} (hu : s.nextUpdate h = .ok u) :
    b.after s op s.current.other = u.image := by
  have hprepare := (ready_of_nextUpdate hl hs.layout hu).1
  have hfill := Copy.refill_of_prepare hprepare (hs.length s.current.other)
  rw [after_target hop hmode, hs.layout, hfill]

/-- Every operation keeps a session true to the buffers, however its writes end. -/
theorem Mirrors.run (hl : l.Placed) (hs : s.Mirrors l b) (op : Operation) (d : Memory) :
    ((op.run s : StateM Memory _) d).1.2.Mirrors l (b.after s op) := by
  have hkept := after_current b s op
  cases hop : op.header? s with
  | none =>
    have hb : b.after s op = b := by simp only [Buffers.after, hop]
    obtain ⟨vs, hvs⟩ : ∃ vs, ((op.run s : StateM Memory _) d).1.2 = { s with vars := vs } := by
      cases op with
      | set name value => exact Operation.edit_keeps s name value
      | delete name => exact Operation.edit_keeps s name none
      | commit => cases hop
      | markInProgress => cases hop
      | markSuccessful => cases hop
    rw [hb, hvs]
    exact hs.edit vs
  | some h =>
    rw [Operation.run_of_header? hop]
    by_cases hmode : s.mode = .writable
    · cases hu : s.nextUpdate h with
      | error e =>
        rw [commitWith_unfit hmode hu]
        rw [nextUpdate, hs.layout] at hu
        obtain ⟨-, hlen, hdecode⟩ :=
          Copy.refill_of_prepare_error hu (hs.length s.current.other)
        rw [← hs.layout, ← after_target hop hmode] at hlen hdecode
        exact hs.stay hkept (hlen.trans (by rw [hs.layout])) (by rw [hdecode]; exact hs.rival)
      | ok u =>
        obtain ⟨-, htarget, hready⟩ := ready_of_nextUpdate hl hs.layout hu
        have himage := hs.after_eq_image hl hop hmode hu
        have hlen : (b.after s op s.current.other).length = l.copySize := by
          rw [himage, hready.length]
        have hdecode : Header.decode (b.after s op s.current.other) = .ok u.header := by
          rw [himage, hready.decode]
        rcases (commitWith_writes hmode hu d).2 with ⟨-, hout⟩ | ⟨e, -, hout⟩
        · rw [hout]
          exact hs.turn hkept htarget hlen hdecode
        · rw [hout]
          exact hs.stay hkept hlen (by rw [hdecode]; rfl)
    · have hclosed : s.isReadOnly = true := by
        rw [← Bool.not_eq_false, isReadOnly_eq_false]
        exact hmode
      have hb : b.after s op = b := by simp only [Buffers.after, hop, hclosed, if_true]
      rw [commitWith_refused hclosed, hb]
      exact hs

end Commit

end Session

theorem Kept.mirrors {s₀ s : Session} {d₀ d : Memory} {b₀ b : Buffers} (hl : l.Placed)
    (h₀ : s₀.Mirrors l b₀) (hr : Kept s₀ d₀ b₀ s d b) : s.Mirrors l b := by
  induction hr with
  | start => exact h₀
  | call op _ ih => exact ih.run hl op _

theorem Session.Mirrors.rivalOutranks_iff {s : Session} {b : Buffers} (hs : s.Mirrors l b) :
    s.rivalOutranks = true ↔ ∃ g, Header.decode (b s.current.other) = .ok g ∧
      let serial (x : Slot) := if x = s.current.other then g.serial else s.header.serial
      Slot.newer (some (serial .a)) (some (serial .b)) = some s.current.other := by
  rw [Session.rivalOutranks_iff]
  constructor
  · rintro ⟨g, hg, hloses⟩
    rw [hs.rival] at hg
    exact ⟨g, eq_ok_of_toOption hg, (s.current.losesTo_iff _ _).1 hloses⟩
  · rintro ⟨g, hg, hnewer⟩
    refine ⟨g, ?_, (s.current.losesTo_iff _ _).2 hnewer⟩
    rw [hs.rival, hg]
    rfl

theorem Session.first_copy_of_openOn {settings : Settings} (hl : settings.layout = .ok l)
    {flags : OpenFlags} {d : Memory} {s : Session}
    (hopen : ((openOn settings flags : StateM Memory _) d).1 = .ok s) :
    let survey := (Survey.take l settings.verifyHeader : StateM Memory _) d
    flags.forceInit = true ∨ survey.1.current? = none →
    ∃ image, Copy.encode l (.fresh 0 0 1 l.sectors) (Region.encode s.vars) = .ok image ∧
      survey.2.since ((openOn settings flags : StateM Memory _) d).2 = (blanking l ++
        [Write.mk (l.extensionOffset .a) (image.drop blockSize),
          Write.mk (l.offset .a) (image.take blockSize)]).map Write.whole ∧
      Buffers.opened l flags survey.1 .a = image := by
  intro survey hinit
  have hplaced := Settings.placed hl
  unfold Buffers.opened
  rcases openOn_starts hl hopen with ⟨hfound, -⟩ | ⟨vs, hvars, hestablish⟩
  · have hfound := initialVars?_eq_none_iff.1 hfound
    rcases hinit with hforce | hnone
    · rw [hfound.1] at hforce
      cases hforce
    · exact absurd hnone hfound.2
  · rw [hestablish] at hopen ⊢
    obtain ⟨u, hu, rfl, -, hsince⟩ := establish_whole hplaced hopen
    have htarget := (firstUpdate_ready hplaced hu).1
    have hfill := Copy.refill_of_prepare hu (Bytes.length_zeros l.copySize)
    refine ⟨u.image, Copy.encode_of_prepare hu, ?_, ?_⟩
    · rw [hsince, Update.parts, htarget]
    · rw [hvars]
      exact congrArg Prod.snd hfill

/-- A commit writes exactly an encoded copy. The one that initializes a store writes its first copy
over blanks. After that, whatever was asked of the session and whatever failed, a commit that
succeeds makes these writes: zeros over the target's header block, if and only if a header stands in
the target's buffer that would be current beside the current one; the extension; and the header
block. The last two are the encoding of the packed variables under the next header, which is also
what the target's buffer is filled with, whatever it held. -/
theorem committed_copy_is_encoded {settings : Settings} (hl : settings.layout = .ok l)
    {flags : OpenFlags} {d₀ : Memory} {s₀ : Session}
    (hopen : ((Session.openOn settings flags : StateM Memory _) d₀).1 = .ok s₀) :
    let survey := (Survey.take l settings.verifyHeader : StateM Memory _) d₀
    let opened := ((Session.openOn settings flags : StateM Memory _) d₀).2
    let packed (vs : Variables) : Bytes := vs.entries.flatMap
      (fun v => Utf8.encode v.name ++ 0 :: (Utf8.encode v.value ++ [0])) ++ [0]
    let parts (t : Slot) (copy : Bytes) : List Write :=
      [⟨l.extensionOffset t, copy.drop blockSize⟩, ⟨l.offset t, copy.take blockSize⟩]
    (flags.forceInit = true ∨ survey.1.current? = none →
      ∃ image, Copy.encode l (.fresh 0 0 1 l.sectors) (packed s₀.vars) = .ok image ∧
        survey.2.since opened = (Session.blanking l ++ parts .a image).map Write.whole ∧
        Buffers.opened l flags survey.1 .a = image) ∧
    ∀ s d b, Kept s₀ opened (.opened l flags survey.1) s d b → ∀ (op : Operation) (h : Header),
      op.header? s = some h → ((op.run s : StateM Memory _) d).1.1 = .ok () →
      let out := (op.run s : StateM Memory _) d
      let t := s.current.other
      let header : Header := .fresh h.flags h.failedBoots (s.header.serial + 1) l.sectors
      let clearing : Write := ⟨l.offset t, Bytes.zeros blockSize⟩
      ∃ image, ∃ clear : Bool, Copy.encode l header (packed s.vars) = .ok image ∧
        (clear = true ↔ ∃ g, Header.decode (b t) = .ok g ∧
          let serial (x : Slot) := if x = t then g.serial else s.header.serial
          Slot.newer (some (serial .a)) (some (serial .b)) = some t) ∧
        d.since out.2 = ((if clear then [clearing] else []) ++ parts t image).map Write.whole ∧
        b.after s op t = image ∧
        ∀ buffer : Bytes, buffer.length = l.copySize →
          Copy.refill l header s.vars buffer = (.ok out.1.2.header, image) := by
  intro survey opened packed parts
  have hplaced := Settings.placed hl
  refine ⟨Session.first_copy_of_openOn hl hopen, ?_⟩
  intro s d b hr op h hop hok out t header clearing
  have hs := hr.mirrors hplaced (.of_openOn hl hopen)
  have hheader : s.nextHeader h = header := by rw [Session.nextHeader, hs.layout]
  rw [Operation.run_of_header? hop] at hok
  have hout : out = (s.commitWith h : StateM Memory _) d := Operation.run_of_header? hop d
  rcases s.commitWith_cases h d with ⟨e, he⟩ |
    ⟨u, hmode, hu, hd, ⟨hwritten, hresult⟩ | ⟨e, -, hresult⟩⟩
  · rw [he] at hok
    cases hok
  · obtain ⟨hprepare, htarget, hready⟩ := Session.ready_of_nextUpdate hplaced hs.layout hu
    rw [hs.layout] at hd hwritten
    have hwrites : u.writes l s.rivalOutranks =
        (if s.rivalOutranks then [clearing] else []) ++ parts t u.image := by
      rw [Update.writes_eq, Update.front, Update.clearing, Update.extension, Update.block, htarget]
    have hsince := Update.since_writes hplaced hready hwritten
    rw [hheader] at hprepare
    refine ⟨u.image, s.rivalOutranks, Copy.encode_of_prepare hprepare, hs.rivalOutranks_iff, ?_,
      hs.after_eq_image hplaced hop hmode hu, ?_⟩
    · rw [hout, hd, hsince, hwrites]
    · intro buffer hbuffer
      rw [Copy.refill_of_prepare hprepare hbuffer, hout, hresult, Session.committed_header]
  · rw [hresult] at hok
    cases hok

/-- On a new store, a commit that is torn in its extension leaves its header in copy B's buffer, so
that the boot that is counted after it clears copy B's header block first. -/
theorem committed_copy_is_encoded_after_torn :
    let settings : Settings := { sectors := 1 }
    let l : Layout := ⟨1, 0, 1024⟩
    let d₀ : Memory := { plan := { writeTears := fun n => if n = 6 then some 510 else none } }
    let opened := (Session.openOn settings {} : StateM Memory _) d₀
    let survey := (Survey.take l settings.verifyHeader : StateM Memory _) d₀
    ∃ s₀ s d b image, opened.1 = .ok s₀ ∧ Kept s₀ opened.2 (.opened l {} survey.1) s d b ∧
      Copy.encode l (.fresh Header.bootInProgress 0 2 1) [0] = .ok image ∧
      d.since ((Operation.markInProgress.run s : StateM Memory _) d).2 =
        [Write.mk 1024 (Bytes.zeros 512), Write.mk 1536 (image.drop 512),
          Write.mk 1024 (image.take 512)].map Write.whole := by
  intro settings l d₀ opened survey
  have hl : settings.layout = .ok l := eq_ok_of_toOption (by decide +kernel)
  have hrun : (opened.1.toOption.any fun s₀ =>
      let torn := (Operation.commit.run s₀ : StateM Memory _) opened.2
      let last := (Operation.markInProgress.run torn.1.2 : StateM Memory _) torn.2
      torn.1.2.current == .a && torn.1.2.header.serial == 1 && torn.1.2.vars == {} &&
        torn.1.2.header.startBoot.flags == Header.bootInProgress &&
        torn.1.2.header.startBoot.failedBoots == 0 && last.1.1.toOption == some () &&
        (torn.2.since last.2).length == 3) = true := by
    decide +kernel
  obtain ⟨s₀, hopen, hchecks⟩ := (Option.any_eq_true _ _).1 hrun
  simp only [Bool.and_eq_true, beq_iff_eq] at hchecks
  obtain ⟨⟨⟨⟨⟨⟨hcurrent, hserial⟩, hvars⟩, hflags⟩, hcount⟩, hlast⟩, hcalls⟩ := hchecks
  have hopen := eq_ok_of_toOption hopen
  have hr : Kept s₀ opened.2 (.opened l {} survey.1) _ _ _ := Kept.start.call .commit
  obtain ⟨image, clear, hencode, -, hsince, -, -⟩ :=
    (committed_copy_is_encoded hl hopen).2 _ _ _ hr .markInProgress _ rfl (eq_ok_of_toOption hlast)
  rw [hcurrent] at hsince
  rw [hserial, hvars, hflags, hcount] at hencode
  refine ⟨s₀, _, _, _, image, hopen, hr, hencode, ?_⟩
  cases clear with
  | false =>
    rw [hsince] at hcalls
    cases hcalls
  | true => exact hsince

end BootStore
