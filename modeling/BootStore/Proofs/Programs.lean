import BootStore.Proofs.WriteProtection

/-!
# Programs of host calls

A run on a host is the tree of its calls and of what it goes on with after each answer. Whatever is
written for any host is such a program. What it does is stated along the tree, for every answer that
a host could give (`Program.Satisfies`, `Program.Follows`).
-/
namespace BootStore

variable {σ Lock File α β : Type}

inductive HostCall (Lock File : Type) where
  | pathExists (path : String)
  | makeDirectory (path : String)
  | tryLock (path : String) (exclusive : Bool)
  | unlock (lock : Lock)
  | readFront (path : String) (limit : Nat)
  | writeFront (path : String) (data : Bytes)
  | openDevice (path : String) (readOnly : Bool)
  | closeDevice (file : File)
  | readDevice (file : File) (offset length : Nat)
  | writeDevice (file : File) (w : Write)

namespace HostCall

@[reducible] def Answer : HostCall Lock File → Type
  | .pathExists _ => Bool
  | .makeDirectory _ => Except Errno Unit
  | .tryLock _ _ => Except Errno (Option Lock)
  | .unlock _ => Unit
  | .readFront _ _ => Except Errno Bytes
  | .writeFront _ _ => Bool
  | .openDevice _ _ => Except Errno File
  | .closeDevice _ => Unit
  | .readDevice _ _ _ => Except ReadFailure Bytes
  | .writeDevice _ _ => Except IoError Unit

def perform [Host (StateM σ) Lock File] : (c : HostCall Lock File) → StateM σ c.Answer
  | .pathExists path => Host.pathExists path
  | .makeDirectory path => Host.makeDirectory path
  | .tryLock path exclusive => Host.tryLock path exclusive
  | .unlock lock => Host.unlock lock
  | .readFront path limit => Host.readFront path limit
  | .writeFront path data => Host.writeFront path data
  | .openDevice path readOnly => Host.openDevice path readOnly
  | .closeDevice file => Host.closeDevice file
  | .readDevice file offset length => Host.readDevice file offset length
  | .writeDevice file w => Host.writeDevice file w

def isDeviceCall : HostCall Lock File → Bool
  | .makeDirectory _ | .tryLock _ _ | .unlock _ => false
  | _ => true

/-- Whether a call is one of those that lead to a lock: it touches no device, no switch and no lock
that is held. -/
def isApproach : HostCall Lock File → Bool
  | .pathExists _ | .makeDirectory _ | .tryLock _ _ => true
  | _ => false

end HostCall

structure Reply (Lock File : Type) where
  call : HostCall Lock File
  answer : call.Answer

inductive Program (Lock File α : Type) where
  | done (a : α)
  | call (c : HostCall Lock File) (next : c.Answer → Program Lock File α)

namespace Program

def bind : Program Lock File α → (α → Program Lock File β) → Program Lock File β
  | .done a, f => f a
  | .call c next, f => .call c fun answer => (next answer).bind f

instance : Monad (Program Lock File) where
  pure := .done
  bind := bind

/-- Every call of the host is a program of one call. -/
instance : Host (Program Lock File) Lock File where
  pathExists path := .call (.pathExists path) .done
  makeDirectory path := .call (.makeDirectory path) .done
  tryLock path exclusive := .call (.tryLock path exclusive) .done
  unlock lock := .call (.unlock lock) .done
  readFront path limit := .call (.readFront path limit) .done
  writeFront path data := .call (.writeFront path data) .done
  openDevice path readOnly := .call (.openDevice path readOnly) .done
  closeDevice file := .call (.closeDevice file) .done
  readDevice file offset length := .call (.readDevice file offset length) .done
  writeDevice file w := .call (.writeDevice file w) .done

/-- The program makes no calls but those that are allowed, and a result is as it should be. -/
def Satisfies (allowed : HostCall Lock File → Bool) (post : α → Prop) :
    Program Lock File α → Prop
  | .done a => post a
  | .call c next => allowed c = true ∧ ∀ answer, (next answer).Satisfies allowed post

/-- After these replies, the program makes each call in order, by the replies that came before it,
and so does it end. -/
def Follows (before : List (Reply Lock File) → HostCall Lock File → Prop)
    (after : List (Reply Lock File) → α → Prop) :
    List (Reply Lock File) → Program Lock File α → Prop
  | past, .done a => after past a
  | past, .call c next =>
    before past c ∧ ∀ answer, Follows before after (past ++ [⟨c, answer⟩]) (next answer)

variable {allowed more : HostCall Lock File → Bool} {p : Program Lock File α}
  {f : α → Program Lock File β}

namespace Satisfies

variable {post post' : α → Prop} {last : β → Prop}

theorem bind (hp : p.Satisfies allowed post) (hf : ∀ a, post a → (f a).Satisfies allowed last) :
    (p >>= f).Satisfies allowed last := by
  induction p with
  | done a => exact hf a hp
  | call c next ih => exact ⟨hp.1, fun answer => ih answer (hp.2 answer)⟩

theorem and (hp : p.Satisfies allowed post) (hp' : p.Satisfies more post') :
    p.Satisfies allowed fun a => post a ∧ post' a := by
  induction p with
  | done a => exact ⟨hp, hp'⟩
  | call c next ih => exact ⟨hp.1, fun answer => ih answer (hp.2 answer) (hp'.2 answer)⟩

theorem imp (hp : p.Satisfies allowed post) (himp : ∀ a, post a → post' a) :
    p.Satisfies allowed post' := by
  induction p with
  | done a => exact himp a hp
  | call c next ih => exact ⟨hp.1, fun answer => ih answer (hp.2 answer)⟩

theorem skip (hf : ∀ a, (f a).Satisfies (fun _ => true) last) :
    (p >>= f).Satisfies (fun _ => true) last := by
  induction p with
  | done a => exact hf a
  | call c next ih => exact ⟨rfl, ih⟩

end Satisfies

namespace Follows

variable {before : List (Reply Lock File) → HostCall Lock File → Prop}
  {after mid : List (Reply Lock File) → α → Prop} {last : List (Reply Lock File) → β → Prop}
  {past : List (Reply Lock File)}

theorem bind (hp : p.Follows before mid past)
    (hf : ∀ past a, mid past a → (f a).Follows before last past) :
    (p >>= f).Follows before last past := by
  induction p generalizing past with
  | done a => exact hf past a hp
  | call c next ih => exact ⟨hp.1, fun answer => ih answer (hp.2 answer)⟩

theorem map {g : α → β} (hp : p.Follows before mid past)
    (hg : ∀ past a, mid past a → last past (g a)) : (g <$> p).Follows before last past := by
  show (p.bind fun a => .done (g a)).Follows before last past
  exact hp.bind hg

theorem imp (hp : p.Follows before mid past) (himp : ∀ past a, mid past a → after past a) :
    p.Follows before after past := by
  induction p generalizing past with
  | done a => exact himp past a hp
  | call c next ih => exact ⟨hp.1, fun answer => ih answer (hp.2 answer)⟩

theorem of_satisfies {post : α → Prop} (hp : p.Satisfies allowed post)
    (hbefore : ∀ more c, (∀ r ∈ more, allowed r.call = true) → allowed c = true →
      before (past ++ more) c)
    (hafter : ∀ more a, (∀ r ∈ more, allowed r.call = true) → post a → after (past ++ more) a) :
    p.Follows before after past := by
  induction p generalizing past with
  | done a =>
    have hnow := hafter [] a nofun hp
    rwa [List.append_nil] at hnow
  | call c next ih =>
    have hnow := hbefore [] c nofun hp.1
    rw [List.append_nil] at hnow
    refine ⟨hnow, fun answer => ih answer (hp.2 answer) ?_ ?_⟩
    · intro more d hmore hd
      rw [List.append_assoc]
      exact hbefore _ d (List.forall_mem_cons.2 ⟨hp.1, hmore⟩) hd
    · intro more a hmore ha
      rw [List.append_assoc]
      exact hafter _ a (List.forall_mem_cons.2 ⟨hp.1, hmore⟩) ha

end Follows

theorem deviceCalls_inherited : BlockDevice.Inherited (m := ReaderT File (Program Lock File))
    fun _ action => ∀ file, (action file).Satisfies HostCall.isDeviceCall fun _ => True := by
  constructor
  · intro α a file
    trivial
  · intro α β x f hx hf file
    exact (hx file).bind fun a _ => hf a file
  · intro offset length file
    exact ⟨rfl, fun _ => trivial⟩
  · intro w file
    exact ⟨rfl, fun _ => trivial⟩

theorem judges : Judges (m := ReaderT File (Program Lock File))
    fun _ action post => ∀ file, (action file).Satisfies (fun _ => true) post where
  pure h _ := h
  bind h hnext file := Satisfies.bind (h file) fun a ha => hnext a ha file
  skip hnext _ := Satisfies.skip fun a => hnext a _
  imp h himp file := (h file).imp himp

end Program

end BootStore
