import BootStore.Proofs.Blanking
import BootStore.Proofs.Lifetime

/-!
# Adjacent serials

Two copies that a store holds at one time are one commit apart, over its whole life
(`serial_adjacency`). The header blocks carry this, also those of copies that are not accepted
(`Layout.InOrder`).
-/
namespace BootStore

/-- Whether a call that reads succeeds, and a call that stores a header block stores it whole. -/
def Access.orderly (l : Layout) : Access → Bool
  | .read _ _ succeeded => succeeded
  | .write w o => (Access.write w o).headerWhole l

theorem Access.headerWhole_of_orderly {l : Layout} {x : Access} (h : x.orderly l = true) :
    x.headerWhole l = true := by
  cases x with
  | read => rfl
  | write w o => exact h

namespace Layout

/-- A header that stands in the slot is one commit before this serial. -/
def Precedes (l : Layout) (contents : Bytes) (t : Slot) (serial : UInt8) : Prop :=
  ∀ g, Header.decode (l.blockOn contents t) = .ok g → serial = g.serial + 1

/-- Header blocks do not both stand, or the one is that of an accepted copy and the other precedes
it. -/
def InOrder (l : Layout) (v : Bool) (contents : Bytes) : Prop :=
  (∃ t, l.Headless contents t) ∨
    ∃ t h, Stored l v contents t h ∧ l.Precedes contents t.other h.serial

theorem Headless.precedes {l : Layout} {c : Bytes} {t : Slot} (h : l.Headless c t)
    (serial : UInt8) : l.Precedes c t serial := by
  obtain ⟨e, he⟩ := h
  intro g hg
  rw [he] at hg
  cases hg

end Layout

variable {l : Layout} {v : Bool} {c : Bytes}

namespace Session

theorem headless_establish (hl : l.Placed) (vs : Variables) (d : Memory) :
    let after := ((establish l vs : StateM Memory _) d).2.contents
    after = d.contents ∨ ∃ t, l.Headless after t := by
  have hblanking : ((BlockDevice.writeAll (blanking l) : StateM Memory _) d).2.contents =
      d.contents ∨ ∃ t, l.Headless
        ((BlockDevice.writeAll (blanking l) : StateM Memory _) d).2.contents t :=
    (headless_blanking hl d).imp_right fun hnone => ⟨.a, hnone⟩
  dsimp only
  rw [establish_device, establishing]
  cases hu : firstUpdate l vs with
  | error e =>
    dsimp only
    exact hblanking
  | ok u =>
    dsimp only
    rw [Memory.writeAll_append]
    rcases Memory.writeAll_cases (blanking l) (fun w => data_ne_nil_of_mem_blanking hl) d with
      ⟨hok, hc, -⟩ | ⟨e, -, -, -, -, -, herr, -⟩
    · -- copy B is blank, and writing copy A leaves it so
      obtain ⟨htarget, hready⟩ := firstUpdate_ready hl hu
      have hother := Update.blockOn_writeAll_other hl hready false
        ((BlockDevice.writeAll (blanking l) : StateM Memory _) d).2
      rw [htarget, hc] at hother
      simp only [hok]
      exact Or.inr ⟨.b, Layout.headless_of_zeros
        (hother.trans (blockOn_blanked hl d.contents .b))⟩
    · simp only [herr]
      exact hblanking

theorem Begun.precedes {readOnly : Bool} {s : Session} {d : Memory}
    (hs : s.Begun l readOnly ((Survey.take l v : StateM Memory _) d).1)
    (hreads : ∀ x ∈ d.since ((Survey.take l v : StateM Memory _) d).2, x.orderly l = true)
    (hc : l.InOrder v d.contents) :
    l.Precedes d.contents s.current.other s.header.serial := by
  obtain ⟨calls, htaken, hlog, -⟩ := Survey.taken l v d
  rw [Memory.since_of_log_eq hlog] at hreads
  have hstored := ((htaken s.current).header?_eq_some hs.header).1
  rcases hc with ⟨t, hnone⟩ | ⟨t, h, ht, hprecedes⟩
  · rcases t.eq_or_eq_other s.current with rfl | rfl
    · exact absurd hstored hnone.not_stored
    · exact hnone.precedes _
  · rcases t.eq_or_eq_other s.current with rfl | rfl
    · rw [hstored.unique ht]
      exact hprecedes
    · -- then the other copy is found and the session's loses to it
      have hfailed : ∀ offset length, .read offset length false ∉ calls s.current.other := by
        intro offset length hx
        have hmem : .read offset length false ∈ calls .a ++ calls .b := by
          cases hslot : s.current.other with
          | a => exact List.mem_append_left _ (hslot ▸ hx)
          | b => exact List.mem_append_right _ (hslot ▸ hx)
        exact absurd (hreads _ hmem) (by simp [Access.orderly])
      have hfound := (htaken s.current.other).header?_of_stored ht ⟨hfailed _ _, hfailed _ _⟩
      obtain ⟨h', hh', hwins⟩ := (Survey.current?_eq_some_iff _ _).1 hs.current
      rw [hs.header] at hh'
      cases hh'
      rw [Slot.other_other] at hprecedes
      have hloses := hwins h hfound
      rw [hprecedes _ hstored.decode_block, Slot.losesTo_succ] at hloses
      cases hloses

end Session

/-- What holds of a mount between events: a header beside the session's copy is one commit older,
and without a session the header blocks are in order. -/
structure Mount.InOrder (l : Layout) (v : Bool) (m : Mount) : Prop where
  grounded : m.Grounded l v
  precedes : ∀ s, m.session = some s →
    l.Precedes m.device.contents s.current.other s.header.serial
  idle : m.session = none → l.InOrder v m.device.contents

variable {settings : Settings} {m : Mount}

theorem Mount.InOrder.device (hm : m.InOrder l v) : l.InOrder v m.device.contents := by
  cases hs : m.session with
  | none => exact hm.idle hs
  | some s => exact Or.inr ⟨s.current, s.header, (hm.grounded s hs).stored, hm.precedes s hs⟩

theorem Operation.precedes_run (hl : l.Placed) {s : Session} {d : Memory}
    (hs : s.Grounded l v d.contents)
    (hprecedes : l.Precedes d.contents s.current.other s.header.serial) (op : Operation)
    (hcalls : ∀ x ∈ d.since ((op.run s : StateM Memory _) d).2, x.headerWhole l = true) :
    let out := (op.run s : StateM Memory _) d
    l.Precedes out.2.contents out.1.2.current.other out.1.2.header.serial := by
  dsimp only
  rcases op.run_cases hl hs with ⟨hd, vs, hout, -⟩ |
    ⟨h, u, -, htarget, hready, hd, ⟨hok, hout⟩ | ⟨e, herr, hout⟩⟩
  · rw [hd, hout]
    exact hprecedes
  · -- the copies change places
    have hkept := (hs.stored_writeAll hl htarget hready s.rivalOutranks).1
    rw [hd, hout]
    intro g hg
    rw [Session.committed_current, htarget, Slot.other_other, hkept.decode_block] at hg
    cases hg
    exact Session.serial_of_ready hready
  · rw [hd] at hcalls
    have hlands := Update.landsHeader_of_error hl hready herr hcalls
    obtain ⟨-, hleft⟩ := Update.headless_writeAll hl hready hlands
    rw [htarget] at hleft
    rw [hd, hout]
    rcases hleft with hsame | ⟨-, hblock⟩ | hnone
    · rw [hsame]
      exact hprecedes
    · intro g hg
      exact hprecedes g (hblock ▸ hg)
    · exact hnone.precedes _

theorem Mount.InOrder.reopen (hl : settings.layout = .ok l)
    (hm : m.InOrder l settings.verifyHeader) (flags : OpenFlags)
    (hcalls : ∀ x ∈ m.device.since (m.step settings (.reopen flags)).device,
      x.orderly l = true) :
    (m.step settings (.reopen flags)).InOrder l settings.verifyHeader := by
  have hgrounded := hm.grounded.step hl (.reopen flags)
  obtain ⟨-, -, -, hsame⟩ := Survey.taken l settings.verifyHeader m.device
  refine ⟨hgrounded, ?_, ?_⟩
  · intro s hs
    rcases Session.openOn_cases hl (eq_ok_of_toOption hs) with ⟨hbegun, hafter⟩ |
      ⟨vs, u, -, htarget, hready, rfl, -, hcontents⟩
    · have hdevice : (m.step settings (.reopen flags)).device =
          ((Survey.take l settings.verifyHeader : StateM Memory _) m.device).2 := hafter
      rw [hdevice] at hcalls ⊢
      rw [hsame.contents]
      exact hbegun.precedes hcalls hm.device
    · have hdevice : (m.step settings (.reopen flags)).device.contents =
          Session.established l u m.device.contents := hcontents
      have hblank := (Session.established_stored (Settings.placed hl) htarget hready
        settings.verifyHeader m.device.contents).2
      rw [hdevice, Session.ofFirstUpdate_current, htarget]
      exact (Layout.headless_of_zeros hblank).precedes _
  · -- opening failed, but it may have begun to blank the copies
    intro _
    rcases Session.openOn_device hl flags m.device with hcontents | ⟨vs, e, he, hafter⟩
    · rw [Mount.step, hcontents]
      exact hm.device
    · have hleft := Session.headless_establish (Settings.placed hl) vs e
      rw [← hafter, he] at hleft
      rcases hleft with hcontents | hnone
      · rw [Mount.step, hcontents]
        exact hm.device
      · exact Or.inl hnone

theorem Mount.InOrder.step (hl : settings.layout = .ok l) (hm : m.InOrder l settings.verifyHeader)
    (event : Mount.Event)
    (hcalls : ∀ x ∈ m.device.since (m.step settings event).device, x.orderly l = true) :
    (m.step settings event).InOrder l settings.verifyHeader := by
  cases event with
  | reopen flags => exact hm.reopen hl flags hcalls
  | close =>
    constructor
    · exact hm.grounded.step hl .close
    · intro s hs
      cases hs
    · intro _
      exact hm.device
  | call op =>
    have hgrounded := hm.grounded.step hl (.call op)
    obtain ⟨session, d⟩ := m
    cases session with
    | none => exact hm
    | some s =>
      constructor
      · exact hgrounded
      · intro s' hs'
        cases hs'
        exact op.precedes_run (Settings.placed hl) (hm.grounded s rfl) (hm.precedes s rfl)
          fun x hx => Access.headerWhole_of_orderly (hcalls x hx)
      · intro hs'
        cases hs'

theorem Lifetime.inOrder (hl : settings.layout = .ok l) {m₀ : Mount}
    (h₀ : m₀.InOrder l settings.verifyHeader)
    (hm : Lifetime settings (fun x => x.orderly l = true) m₀ m) :
    m.InOrder l settings.verifyHeader := by
  induction hm with
  | start => exact h₀
  | next event _ hcalls ih => exact ih.step hl event hcalls

theorem Session.inOrder_of_established (hl : settings.layout = .ok l) {flags : OpenFlags}
    {d : Memory} {s : Session}
    (hopen : ((Session.openOn settings flags : StateM Memory _) d).1 = .ok s)
    (hfresh : ∃ w o, .write w o ∈ d.since ((Session.openOn settings flags : StateM Memory _) d).2) :
    (Mount.mk (some s) ((Session.openOn settings flags : StateM Memory _) d).2).InOrder l
      settings.verifyHeader := by
  obtain ⟨calls, htaken, hlog, -⟩ := Survey.taken l settings.verifyHeader d
  constructor
  · intro s' hs'
    cases hs'
    exact Session.openOn_grounded hl hopen
  · intro s' hs'
    cases hs'
    rcases Session.openOn_cases hl hopen with ⟨-, hafter⟩ |
      ⟨vs, u, -, htarget, hready, rfl, -, hcontents⟩
    · -- a survey only reads
      obtain ⟨w, o, hwrite⟩ := hfresh
      rw [hafter, Memory.since_of_log_eq hlog] at hwrite
      exact absurd hwrite (Survey.write_notMem_calls htaken w o)
    · have hblank := (Session.established_stored (Settings.placed hl) htarget hready
        settings.verifyHeader d.contents).2
      rw [hcontents, Session.ofFirstUpdate_current, htarget]
      exact (Layout.headless_of_zeros hblank).precedes _
  · intro hs'
    cases hs'

theorem Memory.current?_of_precedes {m : Memory} {t : Slot} {h : Header}
    (ht : Stored l v m.contents t h) (hprecedes : l.Precedes m.contents t.other h.serial) :
    (m.survey l v).current? = some t := by
  refine (m.finds_of_stored ht ?_).current
  intro g hg
  rw [hprecedes g hg.decode_block]
  exact t.losesTo_pred g.serial

/-- Serial adjacency. Over the whole life of a store that opening has established, whichever writes
fail, as long as header blocks are stored whole or not at all and no read fails: where both copies
are accepted, the one holds the successor of the other's serial, and it is the one that is
current. -/
theorem serial_adjacency (hl : settings.layout = .ok l) {flags : OpenFlags} {d₀ : Memory}
    {s₀ : Session} (hopen : ((Session.openOn settings flags : StateM Memory _) d₀).1 = .ok s₀)
    (hfresh : ∃ w o,
      .write w o ∈ d₀.since ((Session.openOn settings flags : StateM Memory _) d₀).2)
    (hm : Lifetime settings (fun x => x.orderly l = true)
      ⟨some s₀, ((Session.openOn settings flags : StateM Memory _) d₀).2⟩ m)
    {a b : Header} (ha : Stored l settings.verifyHeader m.device.contents .a a)
    (hb : Stored l settings.verifyHeader m.device.contents .b b) :
    (a.serial = b.serial + 1 ∧
      (m.device.survey l settings.verifyHeader).current? = some .a) ∨
    (b.serial = a.serial + 1 ∧
      (m.device.survey l settings.verifyHeader).current? = some .b) := by
  have horder := (Lifetime.inOrder hl (Session.inOrder_of_established hl hopen hfresh) hm).device
  rcases horder with ⟨t, hnone⟩ | ⟨t, h, ht, hprecedes⟩
  · cases t with
    | a => exact absurd ha hnone.not_stored
    | b => exact absurd hb hnone.not_stored
  · have hcurrent := Memory.current?_of_precedes ht hprecedes
    cases t with
    | a =>
      rw [ha.unique ht]
      exact Or.inl ⟨hprecedes b hb.decode_block, hcurrent⟩
    | b =>
      rw [hb.unique ht]
      exact Or.inr ⟨hprecedes a ha.decode_block, hcurrent⟩

/-- A new store after a commit that is torn in its extension and another that succeeds. -/
theorem serial_adjacency_retried :
    let l : Layout := ⟨1, 0, 1024⟩
    let settings : Settings := { sectors := 1 }
    let tears (n : Nat) : Option Nat := if n = 6 then some 100 else none
    let d₀ : Memory := { plan := { writeTears := tears } }
    ∃ s₀ m a b, ((Session.openOn settings {} : StateM Memory _) d₀).1 = .ok s₀ ∧
      Lifetime settings (fun x => x.orderly l = true)
        ⟨some s₀, ((Session.openOn settings {} : StateM Memory _) d₀).2⟩ m ∧
      Stored l false m.device.contents .a a ∧ Stored l false m.device.contents .b b ∧
      b.serial = a.serial + 1 ∧ (m.device.survey l false).current? = some .b := by
  intro l settings tears d₀
  have hl : settings.layout = .ok l := eq_ok_of_toOption (by decide +kernel)
  have hplaced := Settings.placed hl
  let d₁ := ((Session.openOn settings {} : StateM Memory _) d₀).2
  have hrun : (((Session.openOn settings {} : StateM Memory _) d₀).1.toOption.any fun s₀ =>
      let torn := (Operation.commit.run s₀ : StateM Memory _) d₁
      let last := (Operation.commit.run torn.1.2 : StateM Memory _) torn.2
      (d₁.since torn.2).all (·.orderly l) && (torn.2.since last.2).all (·.orderly l) &&
        torn.1.2.current == .a && torn.1.2.header.serial == 1 &&
        last.1.1.toOption == some ()) = true := by
    decide +kernel
  have hfresh : ((d₀.since d₁).any fun x => x.outcome? == some .stored) = true := by
    decide +kernel
  obtain ⟨s₀, hopen, hchecks⟩ := (Option.any_eq_true _ _).1 hrun
  simp only [Bool.and_eq_true, List.all_eq_true, beq_iff_eq] at hchecks
  obtain ⟨⟨⟨⟨htorn, hlast⟩, hcurrent⟩, hserial⟩, hcommit⟩ := hchecks
  have hopen := eq_ok_of_toOption hopen
  have hwrite : ∃ w o, .write w o ∈ d₀.since d₁ := by
    obtain ⟨x, hx, hstored⟩ := List.any_eq_true.1 hfresh
    cases x with
    | read => cases hstored
    | write w o => exact ⟨w, o, hx⟩
  have hstart : Lifetime settings (fun x => x.orderly l = true) ⟨some s₀, d₁⟩ ⟨some s₀, d₁⟩ := .start
  obtain ⟨s, d, hm, hs, hcurrent, hserial, hlast, hok⟩ : ∃ s d,
      Lifetime settings (fun x => x.orderly l = true) ⟨some s₀, d₁⟩ ⟨some s, d⟩ ∧
        s.Grounded l false d.contents ∧ s.current = .a ∧ s.header.serial = 1 ∧
        (∀ x ∈ d.since ((Operation.commit.run s : StateM Memory _) d).2, x.orderly l = true) ∧
        ((s.commit : StateM Memory _) d).1.1 = .ok () :=
    ⟨_, _, hstart.call .commit htorn,
      Operation.grounded_run hplaced (Session.openOn_grounded hl hopen) .commit, hcurrent, hserial,
      hlast, eq_ok_of_toOption hcommit⟩
  have hm := hm.call .commit hlast
  obtain ⟨u, htarget, hready, -, hd, hwritten⟩ := hs.commit_ok hplaced hok
  have ha := (hs.stored_writeAll hplaced htarget hready s.rivalOutranks).1
  have hb := (Update.stored_of_writeAll_ok hplaced hready hwritten false).1
  rw [← hd, hcurrent] at ha
  rw [← hd, htarget, hcurrent] at hb
  refine ⟨s₀, _, _, u.header, hopen, hm, ha, hb, ?_⟩
  rcases serial_adjacency hl hopen hwrite hm ha hb with ⟨holder, -⟩ | hnewer
  · rw [Session.serial_of_ready hready, hserial] at holder
    exact absurd holder (by decide)
  · exact hnewer

end BootStore
