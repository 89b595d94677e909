import ManifestChain.Proofs.Command

/-!
# The course of a command

A command gathers its task, runs the chain and writes what that returned. There are a few ways in
which it can end on the way, and each leaves the disk and the output as they were. None of this
depends on the tools that the command is given.
-/

namespace ManifestChain

/-- Whether a workload has a name and a uid that count as true. -/
def Workload.isIdentified (workload : Workload) : Bool :=
  workload.name.isTruthy && workload.uid.isTruthy

theorem Workload.not_isIdentified (workload : Workload) :
    (!workload.isIdentified) = (!workload.name.isTruthy || !workload.uid.isTruthy) :=
  Bool.not_and _ _

namespace Command

/-- The configuration that a command loads. -/
def configuration (tools : Tools) (options : Options) (disk : Disk) : Except Fault Entries :=
  match options.config with
  | some p => Config.load tools.document disk p
  | none => .error .wrongKind

/-- The manifests that a command reads. -/
def source (tools : Tools) (options : Options) (disk : Disk) : Except Fault (List Value) :=
  match options.fromDir with
  | some p => disk.manifests tools.documents p
  | none => .error .wrongKind

/-- What a command has gathered by the time it runs the chain. -/
structure Task where
  config : Entries
  workload : Workload
  directory : Text
  manifests : List Value

namespace Task

/-- The task that the options set on a disk. -/
structure IsSet (tools : Tools) (task : Task) (options : Options) (disk : Disk) : Prop where
  config : configuration tools options disk = .ok task.config
  workload : Config.identity (.ofEntries task.config) options.identity = .ok task.workload
  identified : task.workload.isIdentified = true
  directory : options.fromDir = some task.directory
  manifests : source tools options disk = .ok task.manifests

/-- What the chain of a task ends in, and the context of its run. -/
def translation (task : Task) (options : Options) : Except Fault Outcome × Context :=
  (Chain.translate task.workload (.ofList task.manifests) (chosenChain options task.config)).runIn
    ⟨Value.field task.config "labelKey", [], .null⟩

/-- The value that the chain of a task returned. -/
def result (task : Task) (outcome : Outcome) : Value := outcome.value (.ofList task.manifests)

def announcement (task : Task) : Text :=
  "Parsed " ++ Text.ofNat task.manifests.length ++ " manifest(s) from " ++ task.directory ++ "\n"

/-- What a command has reported when its chain has run: its manifests, then every warning. -/
def report (task : Task) (options : Options) : Text :=
  task.announcement ++ (task.translation options).2.warnings.flatMap warningLine

/-- The chain of a task came to nothing, for which a line gives the reason: it failed with a fault
of the library's own, or returned what counts as false. -/
inductive Fruitless (task : Task) (options : Options) : Text → Prop
  | failed {f : Fault} {message : Text} (h : (task.translation options).1 = .error f)
      (hown : f.message? = some message) : Fruitless task options ("error: " ++ message ++ "\n")
  | empty {outcome : Outcome} (h : (task.translation options).1 = .ok outcome)
      (hfalsy : (task.result outcome).isTruthy = false) :
      Fruitless task options "No manifests produced — nothing to write.\n"

/-- What is left to do for a task. -/
def conclude (tools : Tools) (task : Task) (options : Options) : Command Unit := do
  let result ← translated task.workload (.ofList task.manifests) (chosenChain options task.config)
    (Value.field task.config "labelKey")
  if result.isTruthy then
    writeManifests tools.write (.ofList (← ofExcept result.manifests)) options.output
  else do
    printErr "No manifests produced — nothing to write.\n"
    exit 1

end Task

/-- What is left to do once a workload is identified. -/
def gather (tools : Tools) (options : Options) (disk : Disk) (config : Entries)
    (workload : Workload) : Command Unit := do
  let fromDir ← path options.fromDir
  let manifests ← ofExcept (disk.manifests tools.documents fromDir)
  let task : Task := ⟨config, workload, fromDir, manifests⟩
  printErr task.announcement
  task.conclude tools options

/-- The ways in which a task can end that was set on a disk. -/
inductive Conclusion (tools : Tools) (task : Task) (options : Options) (disk : Disk) :
    Except Stop Unit → Terminal → Prop
  | broken {f : Fault} (h : (task.translation options).1 = .error f)
      (hforeign : f.message? = none) :
      Conclusion tools task options disk (.error (.fault f)) ⟨disk, [], task.announcement⟩
  | fruitless {line : Text} (h : task.Fruitless options line) :
      Conclusion tools task options disk (.error (.exit 1)) ⟨disk, [], task.report options ++ line⟩
  | unrendered {outcome : Outcome} {f : Fault} (h : (task.translation options).1 = .ok outcome)
      (htruthy : (task.result outcome).isTruthy = true)
      (hrender : (task.result outcome).manifests = .error f) :
      Conclusion tools task options disk (.error (.fault f)) ⟨disk, [], task.report options⟩
  | written {outcome : Outcome} {manifests : List Value} {stop : Except Stop Unit} {t : Terminal}
      (h : (task.translation options).1 = .ok outcome)
      (htruthy : (task.result outcome).isTruthy = true)
      (hrender : (task.result outcome).manifests = .ok manifests)
      (hwrite : (writeManifests tools.write (.ofList manifests) options.output).runFrom
        ⟨disk, [], task.report options⟩ = (stop, t)) :
      Conclusion tools task options disk stop t

/-- The ways in which a command can run that starts on a disk. -/
inductive Course (tools : Tools) (options : Options) (disk : Disk) :
    Except Stop Unit → Terminal → Prop
  | unconfigured {f : Fault} (h : configuration tools options disk = .error f) :
      Course tools options disk (.error (.fault f)) ⟨disk, [], []⟩
  | unbuilt {config : Entries} {f : Fault} (hconfig : configuration tools options disk = .ok config)
      (h : Config.identity (.ofEntries config) options.identity = .error f) :
      Course tools options disk (.error (.fault f)) ⟨disk, [], []⟩
  | unidentified {config : Entries} {workload : Workload} {message : Text}
      (hconfig : configuration tools options disk = .ok config)
      (hworkload : Config.identity (.ofEntries config) options.identity = .ok workload)
      (h : workload.isIdentified = false) :
      Course tools options disk (.error (.exit 2)) ⟨disk, [], message⟩
  | unread {config : Entries} {workload : Workload} {f : Fault}
      (hconfig : configuration tools options disk = .ok config)
      (hworkload : Config.identity (.ofEntries config) options.identity = .ok workload)
      (hidentified : workload.isIdentified = true) (h : source tools options disk = .error f) :
      Course tools options disk (.error (.fault f)) ⟨disk, [], []⟩
  | concluded {task : Task} {stop : Except Stop Unit} {t : Terminal}
      (htask : task.IsSet tools options disk) (h : Conclusion tools task options disk stop t) :
      Course tools options disk stop t

variable {tools : Tools} {options : Options} {disk : Disk} {stop : Except Stop Unit} {t : Terminal}

/-! ## Every command runs in one of these ways -/

/-- A chain is run for a task with its warnings reported, unless a foreign fault breaks it. -/
theorem runFrom_translated (task : Task) (options : Options) (t : Terminal) :
    (translated task.workload (.ofList task.manifests) (chosenChain options task.config)
      (Value.field task.config "labelKey")).runFrom t =
        match (task.translation options).1 with
        | .ok outcome => (.ok (task.result outcome),
            { t with err := t.err ++ (task.translation options).2.warnings.flatMap warningLine })
        | .error f => match f.message? with
          | some message => (.error (.exit 1), { t with err := t.err ++
              (task.translation options).2.warnings.flatMap warningLine ++
                ("error: " ++ message ++ "\n") })
          | none => (.error (.fault f), t) := by
  rw [translated, Task.translation]
  generalize Run.runIn _ _ = run
  obtain ⟨outcome, ctx⟩ := run
  cases outcome with
  | ok outcome =>
      simp only [runFrom_bind, runFrom_printWarnings]
      rfl
  | error f =>
      simp only
      cases f.message? with
      | none => rfl
      | some message =>
          simp only [runFrom_bind, runFrom_printWarnings, runFrom_printErr, runFrom_exit]

theorem conclusion_conclude (tools : Tools) (task : Task) (options : Options) (disk : Disk) :
    Conclusion tools task options disk
      ((task.conclude tools options).runFrom ⟨disk, [], task.announcement⟩).1
      ((task.conclude tools options).runFrom ⟨disk, [], task.announcement⟩).2 := by
  rw [Task.conclude, runFrom_bind, runFrom_translated]
  cases h : (task.translation options).1 with
  | error f =>
      simp only
      cases hmessage : f.message? with
      | none => exact .broken h hmessage
      | some message => exact .fruitless (.failed h hmessage)
  | ok outcome =>
      simp only
      cases htruthy : (task.result outcome).isTruthy with
      | false => exact .fruitless (.empty h htruthy)
      | true =>
          simp only [if_true, runFrom_bind, runFrom_ofExcept]
          cases hrender : (task.result outcome).manifests with
          | error f => exact .unrendered h htruthy hrender
          | ok manifests => exact .written h htruthy hrender rfl

/-- A command whose workload is identified reads the manifests and has its task. -/
theorem course_gather {config : Entries} {workload : Workload}
    (hconfig : configuration tools options disk = .ok config)
    (hworkload : Config.identity (.ofEntries config) options.identity = .ok workload)
    (hidentified : workload.isIdentified = true) :
    Course tools options disk ((gather tools options disk config workload).runFrom ⟨disk, [], []⟩).1
      ((gather tools options disk config workload).runFrom ⟨disk, [], []⟩).2 := by
  rw [gather, runFrom_bind, runFrom_path]
  cases hdirectory : options.fromDir with
  | none => exact .unread hconfig hworkload hidentified (by rw [source, hdirectory])
  | some directory =>
      have hsource : source tools options disk = disk.manifests tools.documents directory := by
        rw [source, hdirectory]
      simp only
      rw [runFrom_bind, runFrom_ofExcept, ← hsource]
      cases hmanifests : source tools options disk with
      | error f => exact .unread hconfig hworkload hidentified hmanifests
      | ok manifests =>
          simp only [Except.mapError]
          rw [runFrom_bind, runFrom_printErr]
          exact .concluded ⟨hconfig, hworkload, hidentified, hdirectory, hmanifests⟩
            (conclusion_conclude _ ⟨config, workload, directory, manifests⟩ _ _)

theorem course_carryOut (tools : Tools) (options : Options) (disk : Disk) :
    Course tools options disk ((carryOut tools options).runFrom ⟨disk, [], []⟩).1
      ((carryOut tools options).runFrom ⟨disk, [], []⟩).2 := by
  -- Every step stops the run, which is a way to end, or hands on what it has found.
  rw [carryOut, runFrom_bind, runFrom_get]
  simp only
  rw [runFrom_bind, runFrom_path]
  cases hpath : options.config with
  | none => exact .unconfigured (by rw [configuration, hpath])
  | some p =>
      have hloaded : configuration tools options disk = Config.load tools.document disk p := by
        rw [configuration, hpath]
      simp only
      rw [runFrom_bind, runFrom_ofExcept, ← hloaded]
      cases hconfig : configuration tools options disk with
      | error f => exact .unconfigured hconfig
      | ok config =>
          simp only [Except.mapError]
          rw [runFrom_bind, runFrom_ofExcept]
          cases hworkload : Config.identity (.ofEntries config) options.identity with
          | error f => exact .unbuilt hconfig hworkload
          | ok workload =>
              simp only [Except.mapError]
              rw [← Workload.not_isIdentified]
              cases hidentified : workload.isIdentified with
              | false =>
                  rw [if_pos (show (!false) = true from rfl), runFrom_bind, runFrom_usageError]
                  exact .unidentified hconfig hworkload hidentified
              | true =>
                  rw [if_neg (show ¬(!true) = true from nofun)]
                  exact course_gather hconfig hworkload hidentified

/-! ## A command has one task -/

namespace Task.IsSet

variable {task task' : Task} {config : Entries} {workload : Workload}

theorem config_eq (h : task.IsSet tools options disk)
    (hconfig : configuration tools options disk = .ok config) :
    config = task.config :=
  Except.ok.inj (hconfig.symm.trans h.config)

theorem workload_eq (h : task.IsSet tools options disk)
    (hconfig : configuration tools options disk = .ok config)
    (hworkload : Config.identity (.ofEntries config) options.identity = .ok workload) :
    workload = task.workload := by
  rw [h.config_eq hconfig] at hworkload
  exact Except.ok.inj (hworkload.symm.trans h.workload)

theorem unique (h : task.IsSet tools options disk) (h' : task'.IsSet tools options disk) :
    task' = task := by
  have hconfig := h.config_eq h'.config
  have hworkload := h.workload_eq h'.config h'.workload
  have hdirectory := Option.some.inj (h'.directory.symm.trans h.directory)
  have hmanifests := Except.ok.inj (h'.manifests.symm.trans h.manifests)
  cases task
  cases task'
  simp only at hconfig hworkload hdirectory hmanifests
  rw [hconfig, hworkload, hdirectory, hmanifests]

/-- A command whose task is set gets to run its chain. -/
theorem conclusion (h : task.IsSet tools options disk)
    (hcourse : Course tools options disk stop t) : Conclusion tools task options disk stop t := by
  cases hcourse with
  | unconfigured hfault =>
      rw [h.config] at hfault
      cases hfault
  | unbuilt hconfig hfault =>
      rw [h.config_eq hconfig, h.workload] at hfault
      cases hfault
  | unidentified hconfig hworkload hmissing =>
      rw [h.workload_eq hconfig hworkload, h.identified] at hmissing
      cases hmissing
  | unread _ _ _ hfault =>
      rw [h.manifests] at hfault
      cases hfault
  | concluded htask hconclusion => rwa [h.unique htask] at hconclusion

end Task.IsSet

end Command

end ManifestChain
