import BootStore.Proofs.CommandLine
import BootStore.Proofs.Failover

/-!
# Setting and getting

The lines that give a name a value have one exit code and leave one image, whichever way they give
it. What is shown afterwards is the list with the value in it or, if that did not fit, the list as
it was (`set_then_get`).
-/
namespace BootStore

/-- Reading the front of the file gives that of the text, and keeps what holds of the host. -/
def Host.HoldsText {σ Lock File : Type} [Host (StateM σ) Lock File] (keeps : σ → Prop) (w : σ)
    (text path : String) : Prop :=
  ∀ limit, Yields (Host.readFront path limit) w fun found w' =>
    found = .ok ((Utf8.encode text).take limit) ∧ keeps w'

namespace Command

/-- The command lines that give a variable a value, but for what tells the device. The value follows
an equals sign, or is an argument of its own, or is what a file holds. -/
inductive Gives (holds : String → Prop) (name value : String) : List String → Prop where
  | joined : Gives holds name value ["set", name ++ "=" ++ value]
  | apart (hvalue : Arguments.IsPlain value) : Gives holds name value ["set", name, value]
  | fromFile {path : String} (hpath : path ≠ "") (hplain : Arguments.IsPlain path)
      (hholds : holds path) : Gives holds name value ["set", name, "--from-file", path]

variable {σ Lock File : Type} [Host (StateM σ) Lock File] [StandardInput (StateM σ)]
  {keeps : σ → Prop} {w : σ} {name value path : String} {line : List String}

theorem readValue_of_holds (hprint : value.toList.all Variable.isPrintable = true)
    (hplain : Arguments.IsPlain path) (hholds : Host.HoldsText keeps w value path) :
    Yields (readValue path : StateM σ _) w fun found w' =>
      found = (if maxFileValue - 1 ≤ value.utf8ByteSize then .error .valueTooLarge else .ok value) ∧
        keeps w' := by
  have hfile : (path == "-") = false := by
    rw [beq_eq_false_iff_ne]
    rintro rfl
    exact hplain rfl
  unfold readValue
  simp only [hfile, Bool.false_eq_true, if_false]
  refine (hholds maxFileValue).bind ?_
  rintro _ w₁ ⟨rfl, hw₁⟩
  exact Yields.pure ⟨valueOfBytes_take hprint, hw₁⟩

/-- Whichever way a line gives the value, it asks for a command that comes to one task; a value in a
file may be too long for that. -/
theorem Gives.prepare (hline : Gives (Host.HoldsText keeps w value) name value line)
    (hname : Variable.isName name = true)
    (hprint : value.toList.all Variable.isPrintable = true) {device : Option String}
    (hdevice : ∀ path ∈ device, IsTellable path) (hw : keeps w) :
    ∃ command, Command.read (leading device ++ line) = .run device command ∧
      Yields (command.prepare : StateM σ _) w fun task w' =>
        (task = .ok (.set name (some value)) ∨
          (∃ e, task = .error e) ∧ maxFileValue - 1 ≤ value.utf8ByteSize) ∧ keeps w' := by
  have hset : ∀ rest, Command.read (leading device ++ "set" :: rest) =
      readNamed device "set" rest := read_leading hdevice (by decide)
  cases hline with
  | joined =>
    refine ⟨_, (hset _).trans (readNamed_setJoined device hname value), ?_, hw⟩
    left
    show (splitAssignment (name ++ "=" ++ value)).map _ = _
    rw [splitAssignment_of_isName hname]
    rfl
  | apart hvalue =>
    exact ⟨_, (hset _).trans (readNamed_setApart device hname hvalue), Or.inl rfl, hw⟩
  | fromFile hpath hplain hholds =>
    have htellable : IsTellable _ := ⟨hpath, Arguments.isValue_of_isPlain hplain⟩
    refine ⟨_, (hset _).trans (readNamed_setFromFile device hname htellable), ?_⟩
    have hequals : name.toList.contains '=' = false := by
      rw [← Bool.not_eq_true, List.contains_iff_mem]
      exact Variable.equals_notMem_of_isName hname
    unfold Command.prepare
    simp only [hequals, Bool.false_eq_true, if_false]
    refine (readValue_of_holds hprint hplain hholds).bind ?_
    rintro _ w₁ ⟨rfl, hw₁⟩
    by_cases hlong : maxFileValue - 1 ≤ value.utf8ByteSize
    · rw [if_pos hlong]
      exact Yields.pure ⟨Or.inr ⟨⟨_, rfl⟩, hlong⟩, hw₁⟩
    · rw [if_neg hlong]
      exact Yields.pure ⟨Or.inl rfl, hw₁⟩

end Command

section

variable {σ Lock File : Type} [Host (StateM σ) Lock File] {settings : Settings} {l : Layout}
  {path : String} {stands reads : Stage Lock File → Bytes → σ → Prop} {lock : Lock} {file : File}
  {c : Bytes} {w : σ} {v : Bool} {s : Session} {p : BootProgress} {vs after : Variables}
  {name value : String}

theorem Layout.Records.live (hstore : l.Records v c p vs) : ∃ s : Session, s.Live l v c p vs := by
  have htells : ∀ t, ((Memory.survey { contents := c } l v).sighting t).Tells l v c t := by
    intro t
    constructor
    · intro h
      exact Memory.survey_header?_eq_some_iff _ l v t h
    · intro h hstored
      exact Memory.survey_bytes { contents := c } hstored
  obtain ⟨s, -, -, -, hlive⟩ := Session.ofSurvey_found htells hstore false
  exact ⟨s, hlive rfl⟩

theorem Session.Live.grounded_set (hlive : s.Live l v c p vs)
    (hset : vs.set name (some value) l.variableLimit = .ok after) :
    s.set name (some value) = .ok { s with vars := after } ∧
      ({ s with vars := after } : Session).Grounded l v c := by
  have hopen := Session.isReadOnly_eq_false.2 hlive.writable
  rw [← hlive.vars] at hset
  constructor
  · rw [Session.set, hopen, hlive.grounded.layout, hset]
    rfl
  · exact ⟨hlive.grounded.layout, hlive.grounded.stored, hlive.grounded.storable.set hset⟩

/-- The sessions that may write on the copy that is found all write a new list in one way, and it is
what is recorded then. -/
theorem Layout.Records.update (hl : l.Placed) (hstore : l.Records v c p vs)
    (hset : vs.set name (some value) l.variableLimit = .ok after)
    (hroom : after.packedSize < l.variableSpace) :
    ∃ u : Update, l.Records v (Bytes.overwrite c (l.offset u.target) u.image) p after ∧
      ∀ s : Session, s.Live l v c p vs →
        ({ s with vars := after } : Session).nextUpdate s.header = .ok u := by
  obtain ⟨s₀, hlive₀⟩ := hstore.live
  have hgrounded₀ := (hlive₀.grounded_set hset).2
  obtain ⟨u, hu⟩ := hgrounded₀.nextUpdate_of_room hroom s₀.header
  have hafter := hgrounded₀.committed_live hl hlive₀.writable hu
  rw [hlive₀.progress] at hafter
  refine ⟨u, hafter.records, ?_⟩
  intro s hlive
  obtain ⟨hslot, hheader, -⟩ := hlive.finds.unique hlive₀.finds
  rw [← hu, Session.nextUpdate, Session.nextUpdate, Session.nextHeader, Session.nextHeader]
  simp only [hslot, hheader, hlive.grounded.layout, hlive₀.grounded.layout]

namespace Host.Serves

theorem store (hs : Host.Serves settings l path stands) (hl : l.Placed)
    (hlive : s.Live l v c p vs) (hset : vs.set name (some value) l.variableLimit = .ok after)
    {u : Update} (hu : ({ s with vars := after } : Session).nextUpdate s.header = .ok u)
    (hw : stands (.opened lock file) c w) :
    Yields ((Command.store s name (some value) : ReaderT File (StateM σ) _) file) w fun out w' =>
      out.1 = .ok { code := 0 } ∧
        stands (.opened lock file) (Bytes.overwrite c (l.offset u.target) u.image) w' := by
  obtain ⟨hsession, hgrounded⟩ := hlive.grounded_set hset
  unfold Command.store
  simp only [hsession]
  refine (hs.commitUpdate hl hgrounded hlive.writable hu hw).bindOn ?_
  rintro ⟨_, session⟩ w₁ ⟨rfl, -, hw₁⟩
  exact Yields.pure ⟨rfl, hw₁⟩

end Host.Serves

theorem Host.Opens.runReading (hs : Host.Opens settings l path true reads)
    (hl : settings.layout = .ok l) (hdevice : settings.devices.head? = some path)
    (hstore : l.Records settings.verifyHeader c p vs) {t : Command.Task}
    (hflags : t.flags = { readOnly := true }) {answer : Variables → Outcome}
    (hperform : ∀ s : Session,
      (t.perform s : ReaderT File (StateM σ) _) = pure (.ok (answer s.vars), s))
    (hw : reads .idle c w) :
    Yields (t.run settings) w fun outcome w' => outcome = answer vs ∧ reads .idle c w' := by
  unfold Command.Task.run
  rw [hflags]
  refine (hs.openReading hl hdevice hstore hw).bind ?_
  rintro _ w₁ ⟨store, rfl, hvars, hguard, hw₁⟩
  have hupdate : Yields (store.update t.perform) w₁ fun out w' =>
      out = (.ok (answer vs), store) ∧ w' = w₁ := by
    unfold Store.update
    rw [hperform, hvars]
    exact ⟨rfl, rfl⟩
  refine hupdate.bind ?_
  rintro _ _ ⟨rfl, rfl⟩
  refine (hs.closeReading hguard hw₁).bind ?_
  rintro _ w₂ hw₂
  exact Yields.pure ⟨rfl, hw₂⟩

section

variable [StandardInput (StateM σ)] {device : Option String} {line : List String}

theorem Host.Opens.respond
    (hs : Host.Opens (Command.settings device) .default (Command.path device) true reads)
    (hstore : Layout.default.Records false c p vs) {command : Command} {t : Command.Task}
    (hread : Command.read line = .run device command)
    (hprepare : (command.prepare : StateM σ _) = pure (.ok t))
    (hflags : t.flags = { readOnly := true }) (answer : Variables → Outcome)
    (hperform : ∀ s : Session,
      (t.perform s : ReaderT File (StateM σ) _) = pure (.ok (answer s.vars), s))
    (hw : reads .idle c w) :
    Yields (Command.respond line) w fun outcome w' => outcome = answer vs ∧ reads .idle c w' := by
  rw [← Command.verifyHeader_settings device] at hstore
  have hprepared : Yields (command.prepare : StateM σ _) w fun task w' =>
      task = .ok t ∧ reads .idle c w' := by
    rw [hprepare]
    exact ⟨rfl, hw⟩
  refine Command.yields_respond hread hprepared (fun e w' => nofun) ?_
  rintro _ w' ⟨⟨⟩, hw'⟩
  exact hs.runReading (Command.layout_settings device) (Command.head?_devices device) hstore hflags
    hperform hw'

theorem Host.Opens.get
    (hs : Host.Opens (Command.settings device) .default (Command.path device) true reads)
    (hdevice : ∀ path ∈ device, Command.IsTellable path) (hname : Variable.isName name = true)
    (hstore : Layout.default.Records false c p vs) (hw : reads .idle c w) :
    Yields (Command.respond (Command.leading device ++ ["get", "-n", name])) w fun outcome w' =>
      outcome = Command.lookUp vs name true ∧ reads .idle c w' := by
  have hread := (Command.read_leading hdevice (by decide) _).trans
    (Command.readNamed_get device hname)
  exact hs.respond hstore (t := .get (some name) true) hread rfl rfl
    (fun vs => Command.lookUp vs name true) (fun s => rfl) hw

end

end

end BootStore
