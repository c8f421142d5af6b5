import BootStore.Proofs.Opening

/-!
# Lifetimes

A store over its whole life on one device: it is opened and closed any number of times, and
operations are called on it while it is open. The open session is always grounded.
-/
namespace BootStore

/-- A device and the session that is open on it, if one is. -/
structure Mount where
  session : Option Session
  device : Memory

namespace Mount

inductive Event where
  | reopen (flags : OpenFlags)
  | close
  | call (op : Operation)
  deriving DecidableEq, Repr

/-- The mount after an event. Opening ends the session before it, even if it fails, and without a
session there is nothing to call. -/
def step (settings : Settings) (m : Mount) : Event → Mount
  | .reopen flags =>
    let out := (Session.openOn settings flags : StateM Memory _) m.device
    ⟨out.1.toOption, out.2⟩
  | .close => ⟨none, m.device⟩
  | .call op =>
    match m.session with
    | none => m
    | some s =>
      let out := (op.run s : StateM Memory _) m.device
      ⟨some out.1.2, out.2⟩

def Grounded (l : Layout) (v : Bool) (m : Mount) : Prop :=
  ∀ s, m.session = some s → s.Grounded l v m.device.contents

theorem Grounded.step {settings : Settings} {l : Layout} (hl : settings.layout = .ok l) {m : Mount}
    (hm : m.Grounded l settings.verifyHeader) (event : Event) :
    (m.step settings event).Grounded l settings.verifyHeader := by
  cases event with
  | reopen flags =>
    intro s hs
    exact Session.openOn_grounded hl (eq_ok_of_toOption hs)
  | close =>
    intro s hs
    cases hs
  | call op =>
    obtain ⟨session, d⟩ := m
    cases session with
    | none => exact hm
    | some s =>
      intro s' hs'
      cases hs'
      exact op.grounded_run (Settings.placed hl) (hm s rfl)

end Mount

/-- The mounts that events lead to when all calls to the device are allowed. -/
inductive Lifetime (settings : Settings) (allowed : Access → Prop) (m₀ : Mount) : Mount → Prop where
  | start : Lifetime settings allowed m₀ m₀
  | next {m : Mount} (event : Mount.Event) : Lifetime settings allowed m₀ m →
      (∀ x ∈ m.device.since (m.step settings event).device, allowed x) →
      Lifetime settings allowed m₀ (m.step settings event)

theorem Lifetime.call {settings : Settings} {allowed : Access → Prop} {m₀ : Mount} {s : Session}
    {d : Memory} (hm : Lifetime settings allowed m₀ ⟨some s, d⟩) (op : Operation)
    (hcalls : ∀ x ∈ d.since ((op.run s : StateM Memory _) d).2, allowed x) :
    Lifetime settings allowed m₀
      ⟨some ((op.run s : StateM Memory _) d).1.2, ((op.run s : StateM Memory _) d).2⟩ :=
  hm.next (.call op) hcalls

theorem Lifetime.grounded {settings : Settings} {allowed : Access → Prop} {l : Layout}
    (hl : settings.layout = .ok l) {m₀ m : Mount} (h₀ : m₀.Grounded l settings.verifyHeader)
    (hm : Lifetime settings allowed m₀ m) : m.Grounded l settings.verifyHeader := by
  induction hm with
  | start => exact h₀
  | next event _ _ ih => exact ih.step hl event

end BootStore
