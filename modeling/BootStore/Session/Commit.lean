import BootStore.Session

/-!
# Commits

A commit writes a session's state into the copy that is not current, extension first and header
block last. A header block that stood there and would outrank the current copy before a good
extension is cleared before anything else is written.
-/
namespace BootStore

structure Update where
  target : Slot
  header : Header
  image : Bytes

namespace Update

def prepare (l : Layout) (target : Slot) (h : Header) (vs : Variables) :
    Except StoreError Update :=
  match Region.write vs (Bytes.zeros l.variableSpace) with
  | .error e => .error e
  | .ok (_, region) =>
    let (header, image) :=
      Copy.stamp h (Bytes.overwrite (Bytes.zeros l.copySize) l.variableStart region)
    .ok { target, header, image }

def clearing (u : Update) (l : Layout) : Write := ⟨l.offset u.target, Bytes.zeros blockSize⟩

/-- The copy's two parts, header block last. -/
def parts (u : Update) (l : Layout) : List Write :=
  [⟨l.extensionOffset u.target, u.image.drop blockSize⟩,
    ⟨l.offset u.target, u.image.take blockSize⟩]

def writes (u : Update) (l : Layout) (clearFirst : Bool) : List Write :=
  if clearFirst then u.clearing l :: u.parts l else u.parts l

end Update

namespace Session

def nextHeader (s : Session) (h : Header) : Header :=
  .fresh h.flags h.failedBoots (s.header.serial + 1) s.layout.sectors

/-- Whether the header last seen in the other copy would make that copy current. -/
def rivalOutranks (s : Session) : Bool :=
  match s.rival with
  | none => false
  | some rival =>
    match s.current with
    | .a => Slot.newer (some s.header.serial) (some rival.serial) == some .b
    | .b => Slot.newer (some rival.serial) (some s.header.serial) == some .a

def nextUpdate (s : Session) (h : Header) : Except StoreError Update :=
  Update.prepare s.layout s.current.other (s.nextHeader h) s.vars

/-- The session after an update was written: its target is current, and the other copy is the
one that was current before. -/
def committed (s : Session) (u : Update) : Session :=
  { s with current := u.target, header := u.header, rival := some s.header }

/-- The session after writing an update failed: the target may hold the update's header. -/
def attempted (s : Session) (u : Update) : Session := { s with rival := some u.header }

@[simp] theorem nextHeader_sectors (s : Session) (h : Header) :
    (s.nextHeader h).sectors = s.layout.sectors := rfl

@[simp] theorem committed_current (s : Session) (u : Update) :
    (s.committed u).current = u.target := rfl

@[simp] theorem committed_header (s : Session) (u : Update) :
    (s.committed u).header = u.header := rfl

variable {m : Type → Type} [Monad m] [BlockDevice m]

/-- Writes the session's variables to the copy that is not current. A commit that fails changes
nothing that the session shows. -/
def commit (s : Session) : m (Except StoreError Unit × Session) := do
  if s.isReadOnly then return (.error .readOnly, s)
  match s.nextUpdate s.header with
  | .error e => return (.error e, s)
  | .ok u =>
    match ← BlockDevice.writeAll (u.writes s.layout s.rivalOutranks) with
    | .error e => return (.error (.io e), s.attempted u)
    | .ok () => return (.ok (), s.committed u)

/-- Commits with `h` in the place of the session's header, which comes back if the commit fails. -/
def commitHeader (s : Session) (h : Header) : m (Except StoreError Unit × Session) := do
  if s.isReadOnly then return (.error .readOnly, s)
  match ← { s with header := h }.commit with
  | (.error e, after) => return (.error e, { after with header := s.header })
  | (.ok (), after) =>
    -- the copy that was current holds the header from before the swap
    return (.ok (), { after with rival := some s.header })

end Session

end BootStore
