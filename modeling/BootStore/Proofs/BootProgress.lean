import BootStore.Proofs.CrashIsolation
import BootStore.Proofs.Lifetime

/-!
# Boot progress

The flag of a boot in progress and the count of failed boots follow a machine with these two fields,
over the life of a store (`boot_progress_refines`).
-/
namespace BootStore

structure BootProgress where
  inProgress : Bool
  failedBoots : Nat
  deriving DecidableEq, Repr

inductive BootMark where
  | started
  | succeeded
  deriving DecidableEq, Repr

namespace BootProgress

/-- A boot that starts while one is in progress counts that one as failed, up to 255. -/
def next (p : BootProgress) : BootMark → BootProgress
  | .started => ⟨true, if p.inProgress then min (p.failedBoots + 1) 255 else p.failedBoots⟩
  | .succeeded => ⟨false, 0⟩

/-- The count that a mark returns: the failed boots with the one it counts, or those before it. -/
def answer (p : BootProgress) : BootMark → Nat
  | .started => (p.next .started).failedBoots
  | .succeeded => p.failedBoots

def answers (p : BootProgress) : List BootMark → List Nat
  | [] => []
  | mark :: marks => p.answer mark :: answers (p.next mark) marks

theorem answers_append (p : BootProgress) (marks : List BootMark) (mark : BootMark) :
    p.answers (marks ++ [mark]) = p.answers marks ++ [(marks.foldl next p).answer mark] := by
  induction marks generalizing p with
  | nil => rfl
  | cons first marks ih => exact congrArg (p.answer first :: ·) (ih (p.next first))

end BootProgress

namespace Header

def progress (h : Header) : BootProgress := ⟨h.inProgress, h.failedBoots.toNat⟩

def otherFlags (h : Header) : UInt8 := h.flags &&& ~~~ bootInProgress

def marked (h : Header) : BootMark → Header
  | .started => h.startBoot
  | .succeeded => h.endBoot

def answer (h : Header) : BootMark → UInt8
  | .started => h.startBoot.failedBoots
  | .succeeded => h.failedBoots

theorem progress_congr {g h : Header} (hflags : g.flags = h.flags)
    (hcount : g.failedBoots = h.failedBoots) :
    g.progress = h.progress ∧ g.otherFlags = h.otherFlags := by
  rw [progress, progress, inProgress, inProgress, otherFlags, otherFlags, hflags, hcount]
  exact ⟨rfl, rfl⟩

theorem flag_bits (f : UInt8) :
    ((f ||| bootInProgress) &&& bootInProgress != 0) = true ∧
    (f ||| bootInProgress) &&& ~~~ bootInProgress = f &&& ~~~ bootInProgress ∧
    (f &&& ~~~ bootInProgress &&& bootInProgress != 0) = false ∧
    (f &&& ~~~ bootInProgress) &&& ~~~ bootInProgress = f &&& ~~~ bootInProgress := by
  obtain ⟨b⟩ := f
  revert b
  decide +kernel

theorem progress_startBoot (h : Header) :
    h.startBoot.progress = h.progress.next .started ∧ h.startBoot.otherFlags = h.otherFlags := by
  cases hprogress : h.inProgress with
  | false =>
    obtain ⟨hset, hkept, -⟩ := flag_bits h.flags
    have hstart : h.startBoot = { h with flags := h.flags ||| bootInProgress } :=
      if_neg (by rw [hprogress]; decide)
    rw [hstart]
    refine ⟨?_, hkept⟩
    simp only [progress, BootProgress.next, hprogress, Bool.false_eq_true, if_false]
    rw [inProgress, hset]
  | true =>
    have hstart : h.startBoot =
        { h with failedBoots := if h.failedBoots = 255 then 255 else h.failedBoots + 1 } :=
      if_pos hprogress
    have hcount : (if h.failedBoots = 255 then 255 else h.failedBoots + 1 : UInt8).toNat =
        min (h.failedBoots.toNat + 1) 255 := by
      by_cases hfull : h.failedBoots = 255
      · rw [if_pos hfull, hfull]
        rfl
      · have hne : h.failedBoots.toNat ≠ 255 := fun heq => hfull (UInt8.toNat_inj.1 heq)
        have hlt := h.failedBoots.toNat_lt
        rw [if_neg hfull, UInt8.toNat_add]
        simp
        omega
    rw [hstart]
    refine ⟨?_, rfl⟩
    simp only [progress, BootProgress.next, hprogress, if_true, hcount]
    exact congrArg (BootProgress.mk · _) hprogress

theorem progress_endBoot (h : Header) :
    h.endBoot.progress = h.progress.next .succeeded ∧ h.endBoot.otherFlags = h.otherFlags := by
  obtain ⟨-, -, hcleared, hkept⟩ := flag_bits h.flags
  exact ⟨congrArg (BootProgress.mk · 0) hcleared, hkept⟩

theorem progress_marked (h : Header) (mark : BootMark) :
    (h.marked mark).progress = h.progress.next mark ∧
      (h.marked mark).otherFlags = h.otherFlags := by
  cases mark with
  | started => exact h.progress_startBoot
  | succeeded => exact h.progress_endBoot

theorem toNat_answer (h : Header) (mark : BootMark) :
    (h.answer mark).toNat = h.progress.answer mark := by
  cases mark with
  | started => exact congrArg BootProgress.failedBoots (h.progress_marked .started).1
  | succeeded => rfl

end Header

namespace Operation

variable {l : Layout} {v : Bool} {s : Session}

def mark? : Operation → Option BootMark
  | .markInProgress => some .started
  | .markSuccessful => some .succeeded
  | _ => none

/-- The mark that a call makes and the count that it returns, if it returns one. -/
def marking (op : Operation) (s : Session) (d : Memory) : Option (BootMark × UInt8) :=
  match op with
  | .markInProgress => ((s.markInProgress : StateM Memory _) d).1.1.toOption.map (.started, ·)
  | .markSuccessful => ((s.markSuccessful : StateM Memory _) d).1.1.toOption.map (.succeeded, ·)
  | _ => none

theorem marking_of_mark? {op : Operation} {mark : BootMark} (hop : op.mark? = some mark)
    (s : Session) (d : Memory) :
    op.header? s = some (s.header.marked mark) ∧
      op.marking s d = ((s.commitWith (s.header.marked mark) : StateM Memory _)
        d).1.1.toOption.map fun _ => (mark, s.header.answer mark) := by
  have hcount : ∀ (r : Except StoreError Unit) (n : UInt8),
      (r.map fun _ => n).toOption.map (mark, ·) = r.toOption.map fun _ => (mark, n) := by
    intro r n
    cases r <;> rfl
  cases op with
  | markInProgress =>
    cases hop
    refine ⟨rfl, ?_⟩
    simp only [marking, Session.markInProgress, Session.commitHeader_eq s.header.serial_startBoot]
    exact hcount _ _
  | markSuccessful =>
    cases hop
    refine ⟨rfl, ?_⟩
    simp only [marking, Session.markSuccessful, Session.commitHeader_eq s.header.serial_endBoot]
    exact hcount _ _
  | _ => cases hop

theorem run_keeps (hl : l.Placed) {d : Memory} (hs : s.Grounded l v d.contents) (op : Operation) :
    ((op.run s : StateM Memory _) d).2.plan = d.plan ∧
      d.contents.length ≤ ((op.run s : StateM Memory _) d).2.contents.length := by
  rcases op.run_cases hl hs with ⟨hd, -⟩ | ⟨h, u, -, -, -, hd, -⟩
  · rw [hd]
    exact ⟨rfl, Nat.le_refl _⟩
  · rw [hd]
    exact ⟨(Memory.writeAll_keeps _ d).2, Memory.length_le_writeAll _ d⟩

end Operation

theorem Session.Grounded.commitWith_header {l : Layout} {v : Bool} {s : Session} (hl : l.Placed)
    {d : Memory} (hs : s.Grounded l v d.contents) (h : Header) :
    let out := (s.commitWith h : StateM Memory _) d
    (out.1.1 = .ok () ∧ out.1.2.header.progress = h.progress ∧
      out.1.2.header.otherFlags = h.otherFlags) ∨
    ∃ e, out.1.1 = .error e ∧ out.1.2.header = s.header := by
  dsimp only
  rcases s.commitWith_cases h d with ⟨e, he⟩ | ⟨u, -, hu, -, ⟨-, hout⟩ | ⟨e, -, hout⟩⟩
  · rw [he]
    exact Or.inr ⟨e, rfl, rfl⟩
  · left
    rw [hout]
    refine ⟨rfl, ?_⟩
    have hheader := (hs.nextUpdate_ready hl hu).2.header
    apply Header.progress_congr
    · rw [Session.committed_header, hheader]
      rfl
    · rw [Session.committed_header, hheader]
      rfl
  · rw [hout]
    exact Or.inr ⟨.io e, rfl, rfl⟩

/-- An operation moves the progress that the session shows by the mark that it makes, if it makes
one. -/
theorem Operation.progress_run {l : Layout} {v : Bool} {s : Session} (hl : l.Placed) {d : Memory}
    (hs : s.Grounded l v d.contents) (op : Operation) :
    let after := ((op.run s : StateM Memory _) d).1.2.header
    after.otherFlags = s.header.otherFlags ∧
      ((op.marking s d = none ∧ after.progress = s.header.progress) ∨
        ∃ mark n, op.marking s d = some (mark, n) ∧ n.toNat = s.header.progress.answer mark ∧
          after.progress = s.header.progress.next mark) := by
  dsimp only
  cases hmark : op.mark? with
  | none =>
    have hnone : op.marking s d = none := by
      cases op <;> first | rfl | cases hmark
    have hedit : ∀ name value, (edit s (s.set name value)).2.header = s.header := by
      intro name value
      obtain ⟨vs, hvs, -⟩ := edit_cases hs name value
      rw [hvs]
    have hsame : ((op.run s : StateM Memory _) d).1.2.header.progress = s.header.progress ∧
        ((op.run s : StateM Memory _) d).1.2.header.otherFlags = s.header.otherFlags := by
      cases op with
      | set name value =>
        show (edit s (s.set name value)).2.header.progress = _ ∧ _
        rw [hedit]
        exact ⟨rfl, congrArg Header.otherFlags (hedit name value)⟩
      | delete name =>
        show (edit s (s.set name none)).2.header.progress = _ ∧ _
        rw [hedit]
        exact ⟨rfl, congrArg Header.otherFlags (hedit name none)⟩
      | commit =>
        rcases hs.commitWith_header hl s.header with ⟨-, hprogress, hother⟩ | ⟨e, -, hsame⟩
        · exact ⟨hprogress, hother⟩
        · exact ⟨congrArg Header.progress hsame, congrArg Header.otherFlags hsame⟩
      | markInProgress => cases hmark
      | markSuccessful => cases hmark
    exact ⟨hsame.2, Or.inl ⟨hnone, hsame.1⟩⟩
  | some mark =>
    obtain ⟨hheader, hmarking⟩ := Operation.marking_of_mark? hmark s d
    obtain ⟨hnext, hflags⟩ := s.header.progress_marked mark
    rw [hmarking, Operation.run_of_header? hheader]
    rcases hs.commitWith_header hl (s.header.marked mark) with
      ⟨hok, hprogress, hother⟩ | ⟨e, herr, hsame⟩
    · rw [hok]
      exact ⟨hother.trans hflags, Or.inr ⟨mark, _, rfl, s.header.toNat_answer mark,
        hprogress.trans hnext⟩⟩
    · rw [herr, hsame]
      exact ⟨rfl, Or.inl ⟨rfl, rfl⟩⟩

theorem Session.openOn_keeps {settings : Settings} {l : Layout} (hl : settings.layout = .ok l)
    {flags : OpenFlags} {d : Memory} {s : Session}
    (hopen : ((openOn settings flags : StateM Memory _) d).1 = .ok s) :
    ((openOn settings flags : StateM Memory _) d).2.plan = d.plan ∧
      d.contents.length ≤ ((openOn settings flags : StateM Memory _) d).2.contents.length := by
  obtain ⟨-, -, -, hsame⟩ := Survey.taken l settings.verifyHeader d
  rcases openOn_cases hl hopen with ⟨-, hafter⟩ | ⟨vs, u, -, -, -, -, hafter, -⟩
  · rw [hafter]
    exact ⟨hsame.plan, Nat.le_of_eq (congrArg List.length hsame.contents.symm)⟩
  · rw [hafter, establish_device]
    refine ⟨(Memory.writeAll_keeps _ _).2.trans hsame.plan, ?_⟩
    rw [← hsame.contents]
    exact Memory.length_le_writeAll _ _

namespace Mount

def Event.startsAnew : Event → Bool
  | .reopen flags => flags.forceInit
  | _ => false

def marking (m : Mount) : Event → Option (BootMark × UInt8)
  | .call op => m.session.bind fun s => op.marking s m.device
  | _ => none

/-- The store records this progress and these other flags: on the device, and in the session that is
open on it, if one is. -/
structure Records (l : Layout) (v : Bool) (m : Mount) (p : BootProgress) (flags : UInt8) :
    Prop where
  reads : m.device.ReadsSucceed
  blocks : ∀ t, l.offset t + blockSize ≤ m.device.contents.length
  found : ∃ t h copy, m.device.Finds l v t h copy ∧ h.progress = p ∧ h.otherFlags = flags
  session : ∀ s, m.session = some s → s.Isolated l v m.device.contents ∧
    s.header.progress = p ∧ s.header.otherFlags = flags

theorem Records.of_isolated {l : Layout} {v : Bool} {s : Session} {d : Memory}
    (hreads : d.ReadsSucceed) (hblocks : ∀ t, l.offset t + blockSize ≤ d.contents.length)
    (hs : s.Isolated l v d.contents) :
    (Mount.mk (some s) d).Records l v s.header.progress s.header.otherFlags := by
  refine ⟨hreads, hblocks, ⟨_, _, _, hs.finds, rfl, rfl⟩, ?_⟩
  intro s' hs'
  cases hs'
  exact ⟨hs, rfl, rfl⟩

variable {settings : Settings} {l : Layout} {m : Mount} {p : BootProgress} {flags : UInt8}

theorem Records.reopen (hl : settings.layout = .ok l)
    (hm : m.Records l settings.verifyHeader p flags) {how : OpenFlags}
    (hforce : how.forceInit = false) :
    (m.step settings (.reopen how)).Records l settings.verifyHeader p flags := by
  obtain ⟨t, h, copy, hfinds, hp, hflags⟩ := hm.found
  obtain ⟨-, -, -, hsame⟩ := Survey.taken l settings.verifyHeader m.device
  obtain ⟨s, hopen, -, hheader, -⟩ := Session.openOn_found hl hforce hm.reads hfinds
  have hends : ∀ t, ¬ (l.offset t < m.device.contents.length ∧
      m.device.contents.length < l.offset t + blockSize) := by
    intro t
    have := hm.blocks t
    omega
  have hisolated := Session.openOn_isolated hl hm.reads hends (congrArg Prod.fst hopen)
  have hstep : m.step settings (.reopen how) =
      ⟨some s, ((Survey.take l settings.verifyHeader : StateM Memory _) m.device).2⟩ := by
    simp only [Mount.step, hopen]
    rfl
  rw [hopen] at hisolated
  rw [hstep, ← hp, ← hflags, ← hheader]
  refine Records.of_isolated ?_ ?_ hisolated
  · rw [Memory.ReadsSucceed, hsame.plan]
    exact hm.reads
  · rw [hsame.contents]
    exact hm.blocks

/-- What an event does to the recorded progress: nothing, or the move of the mark that it makes. -/
theorem Records.step (hl : settings.layout = .ok l)
    (hm : m.Records l settings.verifyHeader p flags) (event : Event)
    (hkeeps : event.startsAnew = false)
    (hcalls : ∀ x ∈ m.device.since (m.step settings event).device, x.headerWhole l = true) :
    (m.marking event = none ∧ (m.step settings event).Records l settings.verifyHeader p flags) ∨
    ∃ mark n, m.marking event = some (mark, n) ∧ n.toNat = p.answer mark ∧
      (m.step settings event).Records l settings.verifyHeader (p.next mark) flags := by
  have hplaced := Settings.placed hl
  cases event with
  | reopen how => exact Or.inl ⟨rfl, hm.reopen hl hkeeps⟩
  | close => exact Or.inl ⟨rfl, hm.reads, hm.blocks, hm.found, nofun⟩
  | call op =>
    obtain ⟨session, d⟩ := m
    cases session with
    | none => exact Or.inl ⟨rfl, hm⟩
    | some s =>
      obtain ⟨hisolated, rfl, rfl⟩ := hm.session s rfl
      obtain ⟨hplan, hlength⟩ := op.run_keeps hplaced hisolated.grounded
      obtain ⟨hother, hprogress⟩ := op.progress_run hplaced hisolated.grounded
      have hrecords := Records.of_isolated (d := ((op.run s : StateM Memory _) d).2)
        (by rw [Memory.ReadsSucceed, hplan]; exact hm.reads)
        (fun t => Nat.le_trans (hm.blocks t) hlength) (hisolated.run hplaced op hcalls)
      rw [hother] at hrecords
      rcases hprogress with ⟨hnone, hsame⟩ | ⟨mark, n, hmark, hanswer, hnext⟩
      · rw [hsame] at hrecords
        exact Or.inl ⟨hnone, hrecords⟩
      · rw [hnext] at hrecords
        exact Or.inr ⟨mark, n, hmark, hanswer, hrecords⟩

end Mount

/-- The mounts that events lead to when all calls to the device are allowed and none begins the
store anew, and the marks made on the way. -/
inductive Marked (settings : Settings) (allowed : Access → Prop) (m₀ : Mount) :
    List (BootMark × UInt8) → Mount → Prop where
  | start : Marked settings allowed m₀ [] m₀
  | next {marks : List (BootMark × UInt8)} {m : Mount} (event : Mount.Event) :
      Marked settings allowed m₀ marks m → event.startsAnew = false →
      (∀ x ∈ m.device.since (m.step settings event).device, allowed x) →
      Marked settings allowed m₀ (marks ++ (m.marking event).toList) (m.step settings event)

theorem Marked.records {settings : Settings} {l : Layout} (hl : settings.layout = .ok l)
    {m₀ m : Mount} {p : BootProgress} {flags : UInt8}
    (h₀ : m₀.Records l settings.verifyHeader p flags) {marks : List (BootMark × UInt8)}
    (hm : Marked settings (fun x => x.headerWhole l = true) m₀ marks m) :
    marks.map (·.2.toNat) = p.answers (marks.map (·.1)) ∧
      m.Records l settings.verifyHeader ((marks.map (·.1)).foldl BootProgress.next p) flags := by
  induction hm with
  | start => exact ⟨rfl, h₀⟩
  | next event _ hkeeps hcalls ih =>
    obtain ⟨hanswers, hrecords⟩ := ih
    rcases hrecords.step hl event hkeeps hcalls with
      ⟨hnone, hnext⟩ | ⟨mark, n, hmark, hanswer, hnext⟩
    · rw [hnone, Option.toList_none, List.append_nil]
      exact ⟨hanswers, hnext⟩
    · rw [hmark, Option.toList_some, List.map_append, List.map_append, hanswers]
      constructor
      · rw [List.map_singleton, List.map_singleton, BootProgress.answers_append, hanswer]
      · rw [List.foldl_append]
        exact hnext

/-- The counters refine the machine of two fields. A store is opened without a failing read, on a
device that holds both header blocks, and then closed, reopened and called in any way but begun
anew, with header blocks stored whole or not at all. The marks that returned a count returned that
of the machine, and what an open session shows and any later opening finds is where the machine
stands after these marks. The other flags stay as they were. -/
theorem boot_progress_refines {settings : Settings} {l : Layout} (hl : settings.layout = .ok l)
    {flags : OpenFlags} {d₀ : Memory} (hreads : d₀.ReadsSucceed)
    (hblocks : ∀ t, l.offset t + blockSize ≤ d₀.contents.length) {s₀ : Session}
    (hopen : ((Session.openOn settings flags : StateM Memory _) d₀).1 = .ok s₀)
    {marks : List (BootMark × UInt8)} {m : Mount}
    (hm : Marked settings (fun x => x.headerWhole l = true)
      ⟨some s₀, ((Session.openOn settings flags : StateM Memory _) d₀).2⟩ marks m) :
    let calls := marks.map (·.1)
    let now := calls.foldl BootProgress.next s₀.header.progress
    marks.map (·.2.toNat) = s₀.header.progress.answers calls ∧
    (∀ s, m.session = some s →
      s.header.progress = now ∧ s.header.otherFlags = s₀.header.otherFlags) ∧
    ∀ how : OpenFlags, how.forceInit = false →
      ∃ s, ((Session.openOn settings how : StateM Memory _) (m.device.withPlan {})).1 = .ok s ∧
        s.header.progress = now ∧ s.header.otherFlags = s₀.header.otherFlags := by
  obtain ⟨hplan, hlength⟩ := Session.openOn_keeps hl hopen
  have hends : ∀ t,
      ¬ (l.offset t < d₀.contents.length ∧ d₀.contents.length < l.offset t + blockSize) := by
    intro t
    have := hblocks t
    omega
  have h₀ := Mount.Records.of_isolated
    (by rw [Memory.ReadsSucceed, hplan]; exact hreads)
    (fun t => Nat.le_trans (hblocks t) hlength) (Session.openOn_isolated hl hreads hends hopen)
  obtain ⟨hanswers, hrecords⟩ := hm.records hl h₀
  refine ⟨hanswers, fun s hs => (hrecords.session s hs).2, ?_⟩
  intro how hforce
  obtain ⟨t, h, copy, hfinds, hprogress, hflags⟩ := hrecords.found
  obtain ⟨s, hs, -, hheader, -⟩ :=
    Session.openOn_found hl hforce (fun _ => rfl) (hfinds.withPlan {})
  refine ⟨s, congrArg Prod.fst hs, ?_, ?_⟩
  · rw [hheader]
    exact hprogress
  · rw [hheader]
    exact hflags

/-- A boot is counted, the next one fails to be recorded in its header block, and is counted when it
is marked again. -/
theorem boot_progress_refines_retried :
    let l : Layout := ⟨1, 0, 1024⟩
    let settings : Settings := { sectors := 1 }
    let d₀ : Memory :=
      { contents := Bytes.zeros 2048,
        plan := { writeTears := fun n => if n = 9 then some 0 else none } }
    ∃ s₀ m, ((Session.openOn settings {} : StateM Memory _) d₀).1 = .ok s₀ ∧
      Marked settings (fun x => x.headerWhole l = true)
        ⟨some s₀, ((Session.openOn settings {} : StateM Memory _) d₀).2⟩
        [(.started, 0), (.started, 1)] m ∧
      ∃ s, ((Session.openOn settings { readOnly := true } : StateM Memory _)
          (m.device.withPlan {})).1 = .ok s ∧ s.header.progress = ⟨true, 1⟩ := by
  intro l settings d₀
  have hl : settings.layout = .ok l := eq_ok_of_toOption (by decide +kernel)
  have hblocks : ∀ t, l.offset t + blockSize ≤ d₀.contents.length := by
    intro t
    rw [show d₀.contents.length = 2048 from Bytes.length_zeros 2048]
    cases t <;> decide
  let start : Mount.Event := .call .markInProgress
  have hrun : (((Session.openOn settings {} : StateM Memory _) d₀).1.toOption.any fun s₀ =>
      let m₀ : Mount := ⟨some s₀, ((Session.openOn settings {} : StateM Memory _) d₀).2⟩
      let m₁ := m₀.step settings start
      let m₂ := m₁.step settings start
      let m₃ := m₂.step settings start
      s₀.header.progress == ⟨false, 0⟩ && m₀.marking start == some (.started, 0) &&
        m₁.marking start == none && m₂.marking start == some (.started, 1) &&
        (m₀.device.since m₁.device).all (·.headerWhole l) &&
        (m₁.device.since m₂.device).all (·.headerWhole l) &&
        (m₂.device.since m₃.device).all (·.headerWhole l)) = true := by
    decide +kernel
  obtain ⟨s₀, hopen, hchecks⟩ := (Option.any_eq_true _ _).1 hrun
  simp only [Bool.and_eq_true, List.all_eq_true, beq_iff_eq] at hchecks
  obtain ⟨⟨⟨⟨⟨⟨hidle, hfirst⟩, hsecond⟩, hthird⟩, hcalls⟩, hcalls'⟩, hcalls''⟩ := hchecks
  have hopen := eq_ok_of_toOption hopen
  obtain ⟨m, hmarked⟩ : ∃ m, Marked settings (fun x => x.headerWhole l = true)
      ⟨some s₀, ((Session.openOn settings {} : StateM Memory _) d₀).2⟩
      [(.started, 0), (.started, 1)] m := by
    generalize ((Session.openOn settings {} : StateM Memory _) d₀).2 = d at *
    have hmarked := ((Marked.start.next start rfl hcalls).next start rfl hcalls').next start rfl
      hcalls''
    rw [hfirst, hsecond, hthird] at hmarked
    exact ⟨_, hmarked⟩
  have hreads : d₀.ReadsSucceed := fun _ => rfl
  obtain ⟨-, -, hlater⟩ := boot_progress_refines hl hreads hblocks hopen hmarked
  obtain ⟨s, hs, hprogress, -⟩ := hlater { readOnly := true } rfl
  refine ⟨s₀, m, hopen, hmarked, s, hs, ?_⟩
  rw [hprogress, hidle]
  rfl

end BootStore
