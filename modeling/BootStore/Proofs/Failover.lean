import BootStore.Machine.Input
import BootStore.Proofs.ImageFile

/-!
# Failover policy

Runs of the two commands that record boots follow a machine on the progress of boots
(`failover_policy`): the third failed boot in a row asks for recovery and is forgotten with the two
before it.
-/
namespace BootStore

inductive BootRun where
  | checkStatus
  | bootSuccess
  deriving DecidableEq, Repr

namespace BootRun

def command : BootRun → Command
  | .checkStatus => .checkStatus
  | .bootSuccess => .bootSuccess

def task : BootRun → Command.Task
  | .checkStatus => .checkStatus
  | .bootSuccess => .bootSuccess

end BootRun

namespace BootProgress

def respond (p : BootProgress) : BootRun → Outcome × BootProgress
  | .checkStatus =>
    let failed := if p.inProgress then min (p.failedBoots + 1) 255 else p.failedBoots
    if failed < 3 then ({ code := 0 }, ⟨true, failed⟩)
    else
      ({ code := 77
         stderr := "Too many boot failures, exit with error to signal boot slot switch\n" },
        ⟨false, 0⟩)
  | .bootSuccess => ({ code := 0, stderr := s!"Failed boot count: {p.failedBoots}\n" }, ⟨false, 0⟩)

def outcomes (p : BootProgress) : List BootRun → List Outcome
  | [] => []
  | run :: runs => (p.respond run).1 :: outcomes (p.respond run).2 runs

def after (p : BootProgress) (runs : List BootRun) : BootProgress :=
  runs.foldl (fun p run => (p.respond run).2) p

theorem length_outcomes (p : BootProgress) (runs : List BootRun) :
    (p.outcomes runs).length = runs.length := by
  induction runs generalizing p with
  | nil => rfl
  | cons run runs ih => exact congrArg (· + 1) (ih (p.respond run).2)

theorem outcomes_append (p : BootProgress) (runs more : List BootRun) :
    p.outcomes (runs ++ more) = p.outcomes runs ++ (p.after runs).outcomes more := by
  induction runs generalizing p with
  | nil => rfl
  | cons run runs ih => exact congrArg ((p.respond run).1 :: ·) (ih (p.respond run).2)

/-- The progress after some boots that were counted and not marked good, the first of them with
none in progress and none failed. -/
def counted (n : Nat) : BootProgress := ⟨n % 4 != 0, n % 4 - 1⟩

theorem respond_counted (n : Nat) :
    ((counted n).respond .checkStatus).1.code = (if n % 4 = 3 then 77 else 0) ∧
      ((counted n).respond .checkStatus).2 = counted (n + 1) := by
  have hcases : n % 4 = 0 ∧ (n + 1) % 4 = 1 ∨ n % 4 = 1 ∧ (n + 1) % 4 = 2 ∨
      n % 4 = 2 ∧ (n + 1) % 4 = 3 ∨ n % 4 = 3 ∧ (n + 1) % 4 = 0 := by
    omega
  rcases hcases with ⟨h, hnext⟩ | ⟨h, hnext⟩ | ⟨h, hnext⟩ | ⟨h, hnext⟩
  all_goals
    rw [counted, counted, h, hnext]
    exact ⟨rfl, rfl⟩

/-- Of boots that are counted and never marked good, every fourth asks for recovery. -/
theorem code_counted (more : List BootRun) {count i : Nat} (hi : i < count) (n : Nat) :
    (((counted n).outcomes (List.replicate count .checkStatus ++ more)).map (·.code))[i]? =
      some (if (n + i) % 4 = 3 then 77 else 0) := by
  induction count generalizing n i with
  | zero => exact absurd hi (Nat.not_lt_zero i)
  | succ count ih =>
    obtain ⟨hcode, hnext⟩ := respond_counted n
    rw [List.replicate_succ, List.cons_append, outcomes, hnext, List.map_cons, hcode]
    cases i with
    | zero => rfl
    | succ i =>
      rw [List.getElem?_cons_succ, ih (Nat.lt_of_succ_lt_succ hi), Nat.add_right_comm,
        Nat.add_assoc]

end BootProgress

def Command.answer : Except StoreError Outcome → Outcome
  | .ok outcome => outcome
  | .error e => failed (.store e)

section

variable {σ Lock File : Type} [Host (StateM σ) Lock File] {settings : Settings} {l : Layout}
  {path : String} {stands : Stage Lock File → Bytes → σ → Prop} {lock : Lock} {file : File}
  {c : Bytes} {w : σ} {v : Bool} {s : Session} {p : BootProgress} {vs : Variables}

namespace Host.Serves

theorem markInProgress (hs : Host.Serves settings l path stands) (hl : l.Placed)
    (hlive : s.Live l v c p vs) (hroom : vs.packedSize < l.variableSpace)
    (hw : stands (.opened lock file) c w) :
    Yields ((s.markInProgress : ReaderT File (StateM σ) _) file) w fun out w' =>
      (∃ n, out.1 = .ok n ∧ n.toNat = (p.next .started).failedBoots) ∧
        ∃ c', out.2.Live l v c' (p.next .started) vs ∧ stands (.opened lock file) c' w' := by
  have hnext := s.header.progress_startBoot.1
  rw [hlive.progress] at hnext
  unfold Session.markInProgress
  rw [Session.commitHeader_eq s.header.serial_startBoot]
  refine (hs.commitWith hl hlive hroom s.header.startBoot hw).bindOn ?_
  rintro ⟨_, after⟩ w₁ ⟨rfl, c', hafter, hw₁⟩
  rw [hnext] at hafter
  exact Yields.pure ⟨⟨_, rfl, congrArg BootProgress.failedBoots hnext⟩, c', hafter, hw₁⟩

theorem markSuccessful (hs : Host.Serves settings l path stands) (hl : l.Placed)
    (hlive : s.Live l v c p vs) (hroom : vs.packedSize < l.variableSpace)
    (hw : stands (.opened lock file) c w) :
    Yields ((s.markSuccessful : ReaderT File (StateM σ) _) file) w fun out w' =>
      (∃ n, out.1 = .ok n ∧ n.toNat = p.failedBoots) ∧
        ∃ c', out.2.Live l v c' ⟨false, 0⟩ vs ∧ stands (.opened lock file) c' w' := by
  have hnext := s.header.progress_endBoot.1
  unfold Session.markSuccessful
  rw [Session.commitHeader_eq s.header.serial_endBoot]
  refine (hs.commitWith hl hlive hroom s.header.endBoot hw).bindOn ?_
  rintro ⟨_, after⟩ w₁ ⟨rfl, c', hafter, hw₁⟩
  rw [hnext] at hafter
  exact Yields.pure ⟨⟨_, rfl, congrArg BootProgress.failedBoots hlive.progress⟩, c', hafter, hw₁⟩

theorem perform (hs : Host.Serves settings l path stands) (hl : l.Placed)
    (hlive : s.Live l v c p vs) (hroom : vs.packedSize < l.variableSpace) (run : BootRun)
    (hw : stands (.opened lock file) c w) :
    Yields ((run.task.perform s : ReaderT File (StateM σ) _) file) w fun out w' =>
      out.1 = .ok (p.respond run).1 ∧
        ∃ c', out.2.Live l v c' (p.respond run).2 vs ∧ stands (.opened lock file) c' w' := by
  cases run with
  | bootSuccess =>
    refine (hs.markSuccessful hl hlive hroom hw).bindOn ?_
    rintro ⟨_, after⟩ w₁ ⟨⟨n, rfl, hn⟩, c', hafter, hw₁⟩
    refine Yields.pure ⟨?_, c', hafter, hw₁⟩
    rw [BootProgress.respond, ← hn]
    rfl
  | checkStatus =>
    show Yields ((Command.countBoot s : ReaderT File (StateM σ) _) file) w _
    unfold Command.countBoot
    refine (hs.markInProgress hl hlive hroom hw).bindOn ?_
    rintro ⟨_, after⟩ w₁ ⟨⟨n, rfl, hn⟩, c', hafter, hw₁⟩
    have hlimit : n < Command.maxFailures ↔ (p.next .started).failedBoots < 3 := by
      rw [← hn]
      exact UInt8.lt_iff_toNat_lt
    by_cases hfew : (p.next .started).failedBoots < 3
    · have hrespond : p.respond .checkStatus = ({ code := 0 }, p.next .started) := if_pos hfew
      simp only [if_pos (hlimit.2 hfew), hrespond]
      exact Yields.pure ⟨rfl, c', hafter, hw₁⟩
    · have hrespond : p.respond .checkStatus = (_, ⟨false, 0⟩) := if_neg hfew
      simp only [if_neg (mt hlimit.1 hfew)]
      refine (hs.markSuccessful hl hafter hroom hw₁).bindOn ?_
      rintro ⟨_, last⟩ w₂ ⟨-, c'', hlast, hw₂⟩
      rw [hrespond]
      exact Yields.pure ⟨rfl, c'', hlast, hw₂⟩

theorem runOpened (hs : Host.Serves settings l path stands) (hl : settings.layout = .ok l)
    (hdevice : settings.devices.head? = some path)
    (hstore : l.Records settings.verifyHeader c p vs) {t : Command.Task} (hflags : t.flags = {})
    (after : Outcome → Bytes → Prop)
    (hperform : ∀ {s : Session} {lock : Lock} {file : File} {w : σ},
      s.Live l settings.verifyHeader c p vs → stands (.opened lock file) c w →
      Yields ((t.perform s : ReaderT File (StateM σ) _) file) w fun out w' =>
        ∃ c', after (Command.answer out.1) c' ∧ stands (.opened lock file) c' w')
    (hw : stands .idle c w) :
    Yields (t.run settings) w fun outcome w' => ∃ c', after outcome c' ∧ stands .idle c' w' := by
  unfold Command.Task.run
  rw [hflags]
  refine (hs.openConfigured hl hdevice hstore hw).bind ?_
  rintro _ w₁ ⟨store, rfl, hlive, hguard, hw₁⟩
  have hupdate : Yields (store.update t.perform) w₁ fun out w' =>
      out.2.guard = store.guard ∧ ∃ c', after (Command.answer out.1) c' ∧
        stands (.opened out.2.lock.handle out.2.file) c' w' := by
    refine (hperform hlive hw₁).bind ?_
    rintro ⟨result, session⟩ w₂ hafter
    exact Yields.pure ⟨rfl, hafter⟩
  refine hupdate.bind ?_
  rintro ⟨result, opened⟩ w₂ ⟨hkept, c', hafter, hw₂⟩
  refine (hs.close (hkept.trans hguard) hw₂).bind ?_
  rintro _ w₃ hw₃
  cases result with
  | error e => exact Yields.pure ⟨c', hafter, hw₃⟩
  | ok outcome => exact Yields.pure ⟨c', hafter, hw₃⟩

/-- A run opens the store, answers and records as the policy says, and gives everything back. -/
theorem runTask (hs : Host.Serves settings l path stands) (hl : settings.layout = .ok l)
    (hdevice : settings.devices.head? = some path)
    (hstore : l.Records settings.verifyHeader c p vs) (hroom : vs.packedSize < l.variableSpace)
    (run : BootRun) (hw : stands .idle c w) :
    Yields (run.task.run settings) w fun outcome w' => outcome = (p.respond run).1 ∧
      ∃ c', l.Records settings.verifyHeader c' (p.respond run).2 vs ∧ stands .idle c' w' := by
  have hflags : run.task.flags = {} := by
    cases run <;> rfl
  have hrun := hs.runOpened hl hdevice hstore hflags (fun outcome c' =>
    outcome = (p.respond run).1 ∧ l.Records settings.verifyHeader c' (p.respond run).2 vs) ?_ hw
  · refine hrun.imp ?_
    rintro outcome w' ⟨c', ⟨houtcome, hafter⟩, hw'⟩
    exact ⟨houtcome, c', hafter, hw'⟩
  · intro s lock file w hlive hw
    refine (hs.perform (Settings.placed hl) hlive hroom run hw).imp ?_
    rintro ⟨_, after⟩ w' ⟨rfl, c', hafter, hw'⟩
    exact ⟨c', ⟨rfl, hafter.records⟩, hw'⟩

end Host.Serves

end

def Command.settings : Option String → Settings
  | none => {}
  | some path => { devices := [path] }

def Command.path (device : Option String) : String := device.getD "/dev/mmcblk0boot1"

section

variable {σ Lock File : Type} [Host (StateM σ) Lock File] [StandardInput (StateM σ)]
  {stands : Stage Lock File → Bytes → σ → Prop} {device : Option String} {c : Bytes} {w : σ}
  {p : BootProgress} {vs : Variables}

def Layout.default : Layout := ⟨1023, 0, 524288⟩

theorem Command.layout_settings (device : Option String) :
    (settings device).layout = .ok .default := by
  have hdefault : ({} : Settings).layout = .ok .default := eq_ok_of_toOption (by decide +kernel)
  cases device with
  | none => exact hdefault
  | some path => exact hdefault

theorem Command.head?_devices (device : Option String) :
    (settings device).devices.head? = some (path device) := by
  cases device <;> rfl

theorem Command.verifyHeader_settings (device : Option String) :
    (settings device).verifyHeader = false := by
  cases device <;> rfl

theorem Command.yields_respond {arguments : List String} {command : Command}
    (hread : Command.read arguments = .run device command)
    {prepared : Except CommandError Task → σ → Prop} {after : Outcome → σ → Prop}
    (hprepare : Yields command.prepare w prepared)
    (herror : ∀ e w', prepared (.error e) w' → after (failed e) w')
    (hrun : ∀ task w', prepared (.ok task) w' → Yields (task.run (settings device)) w' after) :
    Yields (Command.respond arguments) w after := by
  have hrespond : (Command.respond arguments : StateM σ _) = command.run device := by
    unfold Command.respond
    rw [hread]
  rw [hrespond]
  unfold Command.run
  refine hprepare.bind ?_
  intro task w' hw'
  cases task with
  | error e => exact herror e w' hw'
  | ok task =>
    have hafter := hrun task w' hw'
    cases device with
    | none => exact hafter
    | some path => exact hafter

theorem Host.Serves.respond
    (hs : Host.Serves (Command.settings device) .default (Command.path device) stands)
    {arguments : List String} {run : BootRun}
    (hread : Command.read arguments = .run device run.command)
    (hstore : Layout.default.Records false c p vs)
    (hroom : vs.packedSize < Layout.default.variableSpace) (hw : stands .idle c w) :
    Yields (Command.respond arguments) w fun outcome w' => outcome = (p.respond run).1 ∧
      ∃ c', Layout.default.Records false c' (p.respond run).2 vs ∧ stands .idle c' w' := by
  have hprepare : Yields (run.command.prepare : StateM σ _) w fun task w' =>
      task = .ok run.task ∧ stands .idle c w' := by
    cases run with
    | checkStatus => exact ⟨rfl, hw⟩
    | bootSuccess => exact ⟨rfl, hw⟩
  rw [← Command.verifyHeader_settings device] at hstore ⊢
  refine Command.yields_respond hread hprepare (fun e w' => nofun) ?_
  rintro _ w' ⟨⟨⟩, hw'⟩
  exact hs.runTask (Command.layout_settings device) (Command.head?_devices device) hstore hroom run
    hw'

/-- The command line asks for the run, on a device whose file operations succeed. -/
def BootRun.AskedBy (stands : Stage Lock File → Bytes → σ → Prop) (run : BootRun)
    (arguments : List String) : Prop :=
  ∃ device, Command.read arguments = .run device run.command ∧
    Host.Serves (Command.settings device) .default (Command.path device) stands

theorem respondAll (hroom : vs.packedSize < Layout.default.variableSpace)
    {lines : List (List String × BootRun)} (hlines : ∀ line ∈ lines, line.2.AskedBy stands line.1)
    (hstore : Layout.default.Records false c p vs) (hw : stands .idle c w) :
    Yields (lines.mapM fun line => Command.respond line.1) w fun outcomes w' =>
      outcomes = p.outcomes (lines.map (·.2)) ∧
        ∃ c', Layout.default.Records false c' (p.after (lines.map (·.2))) vs ∧
          stands .idle c' w' := by
  induction lines generalizing p c w with
  | nil => exact Yields.pure ⟨rfl, c, hstore, hw⟩
  | cons line lines ih =>
    obtain ⟨device, hread, hs⟩ := hlines line List.mem_cons_self
    rw [List.mapM_cons]
    refine (hs.respond hread hstore hroom hw).bind ?_
    rintro _ w₁ ⟨rfl, c₁, hstore₁, hw₁⟩
    have hrest : ∀ line ∈ lines, line.2.AskedBy stands line.1 :=
      fun line hline => hlines line (List.mem_cons_of_mem _ hline)
    refine (ih hrest hstore₁ hw₁).bind ?_
    rintro _ w₂ ⟨rfl, hafter⟩
    exact Yields.pure ⟨rfl, hafter⟩

/-- The failover policy. The device holds a store whose variables can all be read and packed, and
the file operations on it succeed. The command lines that record boots then answer what the
policy's machine answers, from the progress that is recorded, and leave the store with the progress
that the machine ends with and with the same variables. After a boot that was marked good, of the
boots that are counted without a break exactly every fourth asks for recovery. -/
theorem failover_policy (hstore : Layout.default.Records false c p vs)
    (hroom : vs.packedSize < Layout.default.variableSpace) (hw : stands .idle c w)
    {lines : List (List String × BootRun)}
    (hlines : ∀ line ∈ lines, line.2.AskedBy stands line.1) :
    let runs := lines.map (·.2)
    let out := (lines.mapM fun line => Command.respond line.1 : StateM σ _) w
    out.1 = p.outcomes runs ∧
    (∃ c', Layout.default.Records false c' (p.after runs) vs ∧ stands .idle c' out.2) ∧
    ∀ before count more,
      runs = before ++ .bootSuccess :: (List.replicate count .checkStatus ++ more) →
      ∀ i < count, (out.1.map (·.code))[before.length + 1 + i]? =
        some (if i % 4 = 3 then 77 else 0) := by
  intro runs out
  obtain ⟨houtcomes, hafter⟩ := respondAll hroom hlines hstore hw
  refine ⟨houtcomes, hafter, ?_⟩
  intro before count more hruns i hi
  have hcodes : out.1.map (·.code) = (p.outcomes before).map (·.code) ++ 0 ::
      ((BootProgress.counted 0).outcomes (List.replicate count .checkStatus ++ more)).map
        (·.code) := by
    have hout : out.1 = p.outcomes runs := houtcomes
    rw [hout, hruns, BootProgress.outcomes_append, List.map_append]
    rfl
  have hlength : ((p.outcomes before).map (·.code)).length = before.length := by
    rw [List.length_map, BootProgress.length_outcomes]
  have hcycle := BootProgress.code_counted more hi 0
  rw [Nat.zero_add] at hcycle
  rw [hcodes, List.getElem?_append_right (by omega), hlength, Nat.add_assoc,
    Nat.add_sub_cancel_left, Nat.add_comm 1 i, List.getElem?_cons_succ]
  exact hcycle

end

/-- The usual files with an empty image in the working directory, and other files beside it. -/
def FileTree.besideImage (entries : List (String × Nat)) (more : List Node) : FileTree :=
  { usual with
    nodes := usual.nodes.set 6
      (.directory { parent := 0, entries := ("disk.img", 48) :: entries }) ++ .file {} :: more }

theorem FileTree.hasStore_besideImage (entries : List (String × Nat)) (more : List Node) :
    (besideImage entries more).HasStore (Command.settings (some "disk.img")) "disk.img" 48 40 where
  image := ⟨{}, rfl⟩
  found := by
    refine ⟨⟨6, "disk.img", some 48⟩, ?_, rfl⟩
    show (besideImage entries more).walk .reach maxLinks 6 ["disk.img"] = _
    exact walk_last rfl (by decide +kernel) rfl rfl nofun nofun
  lockDirectory := by
    refine ⟨⟨3, "rk-bootinfo", some 39⟩, ?_, Option.some_ne_none 39⟩
    show (besideImage entries more).walk .entry maxLinks 0 ["run", "rk-bootinfo"] = _
    rw [walk_cons rfl (by decide +kernel) rfl rfl (by decide) (by decide)]
    exact walk_last rfl (by decide +kernel) rfl rfl nofun nofun
  lockFile := by
    refine ⟨⟨39, "lockfile", some 40⟩, ?_, rfl⟩
    show (besideImage entries more).walk .fill maxLinks 0 ["run", "rk-bootinfo", "lockfile"] = _
    rw [walk_cons rfl (by decide +kernel) rfl rfl (by decide) (by decide),
      walk_cons rfl (by decide +kernel) rfl rfl (by decide) (by decide)]
    exact walk_last rfl (by decide +kernel) rfl rfl nofun nofun
  isFile := ⟨{}, rfl⟩

theorem Layout.default_below (t : Slot) :
    default.offset t + default.copySize < Machine.fileOffsetBound := by
  cases t <;> decide

/-- An image that is no device under `/dev` has no write-protect switch. -/
theorem Machine.serves_image {n k : Nat} :
    Host.Serves (Command.settings (some "disk.img")) .default (Command.path (some "disk.img"))
      (stands false (Command.settings (some "disk.img")) "disk.img" n k) := by
  apply Machine.serves Layout.default_below
  intro root hroot
  cases hroot
  decide +kernel

/-- A boot in progress after two that failed is marked good. Of the four that follow and are not,
the last asks for recovery. -/
theorem failover_policy_fourth :
    let vs : Variables := .of [⟨"root", "a"⟩]
    let region := Region.encode vs ++
      Bytes.zeros (Layout.default.variableSpace - (vs.packedSize + 1))
    let copy := (Copy.stamp (.fresh 1 2 7 1023) (Update.unstamped .default region)).2
    let m : Machine := { files := (FileTree.besideImage [] []).setContents 48 (.ofBytes copy) }
    let check := (["-d", "disk.img", "check-status"], BootRun.checkStatus)
    let lines := [(["--device=disk.img", "boot-success"], BootRun.bootSuccess),
      check, check, check, check]
    ((lines.mapM fun line => Command.respond line.1 : StateM Machine _) m).1.map (·.code) =
      [0, 0, 0, 0, 77] := by
  intro vs region copy m check lines
  have hvs : vs.Storable := by decide +kernel
  have hstore : Layout.default.Records false copy ⟨true, 2⟩ vs :=
    Layout.records_packed (Settings.placed (Command.layout_settings none)) rfl (UInt16.le_refl _)
      rfl hvs (by decide)
  have hidle := Machine.stands_setContents (FileTree.hasStore_besideImage [] []) false copy
  have hread : ∀ line ∈ lines, Command.read line.1 = .run (some "disk.img") line.2.command := by
    decide +kernel
  obtain ⟨houtcomes, -, -⟩ := failover_policy hstore (by decide) hidle
    fun line hline => ⟨_, hread line hline, Machine.serves_image⟩
  rw [houtcomes]
  decide +kernel

end BootStore
