import ManifestChain.Proofs.Command.Course

/-!
# The output of a command

Until the chain has returned something that counts as true, a command touches neither the disk nor
its output. Every warning is reported once, in order, whether the chain succeeds or fails with a
fault of the library's own. What a command writes in the end is the stream of the manifests that the
chain returned. All of this holds whatever tools the command is given.
-/

namespace ManifestChain

namespace Command

variable {tools : Tools} {task : Task} {options : Options} {disk : Disk} {stop : Except Stop Unit}
  {t : Terminal} {status : Nat}

/-! ## What a command owes -/

/-- Nothing was written: the disk is as it was, and nothing was printed. -/
structure Untouched (disk : Disk) (t : Terminal) : Prop where
  disk_eq : t.disk = disk
  out_eq : t.out = []

/-- The options name no workload on a disk: the identity can be built, but lacks its name or uid. -/
def LacksIdentity (tools : Tools) (options : Options) (disk : Disk) : Prop :=
  ∃ config workload, configuration tools options disk = .ok config ∧
    Config.identity (.ofEntries config) options.identity = .ok workload ∧
      workload.isIdentified = false

/-- Ways to end before anything is written: with status 1 or 2, or with the fault of the
configuration, of the manifests or of the chain. -/
inductive EndsEarly (tools : Tools) (options : Options) (disk : Disk) : Except Fault Nat → Prop
  | fruitless : EndsEarly tools options disk (.ok 1)
  | unidentified : EndsEarly tools options disk (.ok 2)
  | unconfigured {f : Fault} (h : configuration tools options disk = .error f) :
      EndsEarly tools options disk (.error f)
  | unread {f : Fault} (h : source tools options disk = .error f) :
      EndsEarly tools options disk (.error f)
  | broken {task : Task} {f : Fault} (htask : task.IsSet tools options disk)
      (h : (task.translation options).1 = .error f) : EndsEarly tools options disk (.error f)

namespace Task

/-- The chain of a task returned a value that counts as true and renders to some manifests. -/
def Yields (task : Task) (options : Options) (manifests : List Value) : Prop :=
  ∃ outcome, (task.translation options).1 = .ok outcome ∧
    (task.result outcome).isTruthy = true ∧ (task.result outcome).manifests = .ok manifests

/-- A task was brought to its end: it was reported with every warning, and the stream of what its
chain yields was written. -/
inductive Completed (tools : Tools) (task : Task) (options : Options) (disk : Disk) :
    Terminal → Prop
  | printed {manifests : List Value} {text : Text} (hyields : task.Yields options manifests)
      (hstream : stream tools.write (.ofList manifests) = (text, none))
      (htarget : target? options.output = none) :
      Completed tools task options disk ⟨disk, text, task.report options⟩
  /-- Only in a file the stream stands after the header. -/
  | stored {manifests : List Value} {text file : Text} {content : List UInt8} {after : Disk}
      (hyields : task.Yields options manifests)
      (hstream : stream tools.write (.ofList manifests) = (text, none))
      (htarget : target? options.output = some file)
      (hcontent : (header ++ text).utf8? = some content)
      (hstored : disk.Stored after file content) :
      Completed tools task options disk
        ⟨after, [], task.report options ++ ("Wrote " ++ file ++ "\n")⟩

end Task

/-- What a command that is called in order owes, by how it ends and what it leaves behind. -/
structure Contract (tools : Tools) (options : Options) (disk : Disk) (ended : Except Fault Nat)
    (t : Terminal) : Prop where
  untouched : EndsEarly tools options disk ended → Untouched disk t
  unidentified_iff : ended = .ok 2 ↔ LacksIdentity tools options disk
  fruitless_iff : ended = .ok 1 ↔
    ∃ task : Task, task.IsSet tools options disk ∧ ∃ line, task.Fruitless options line
  /-- With status 1 the manifests, every warning and the reason have been reported. -/
  explained : ended = .ok 1 → ∃ task : Task, task.IsSet tools options disk ∧
    ∃ line, task.Fruitless options line ∧ t.err = task.report options ++ line
  completed : ended = .ok 0 → ∃ task : Task, task.IsSet tools options disk ∧
    task.Completed tools options disk t

/-! ## The end of a task -/

/-- If a chain that came to nothing returned, then what it returned counts as false. -/
theorem Task.Fruitless.isTruthy_result {line : Text} (h : task.Fruitless options line)
    {outcome : Outcome} (hok : (task.translation options).1 = .ok outcome) :
    (task.result outcome).isTruthy = false := by
  cases h with
  | failed hfault => cases hok.symm.trans hfault
  | empty hok' hfalsy =>
      cases hok.symm.trans hok'
      exact hfalsy

namespace Conclusion

/-- A task ends with a status only if its chain came to nothing. -/
theorem of_exit (h : Conclusion tools task options disk (.error (.exit status)) t) :
    status = 1 ∧ ∃ line, task.Fruitless options line ∧
      t = ⟨disk, [], task.report options ++ line⟩ := by
  cases h with
  | fruitless hline => exact ⟨rfl, _, hline, rfl⟩
  | written _ _ _ hwrite =>
      exact (Exitless.writeManifests _ _ _ _ _ (congrArg Prod.fst hwrite)).elim

theorem of_fruitless (h : Conclusion tools task options disk stop t) {line : Text}
    (hline : task.Fruitless options line) : stop = .error (.exit 1) := by
  cases h with
  | broken hfault hforeign =>
      cases hline with
      | failed hfault' hown =>
          cases hfault.symm.trans hfault'
          rw [hforeign] at hown
          cases hown
      | empty hok => cases hfault.symm.trans hok
  | fruitless => rfl
  | unrendered hok htruthy =>
      rw [hline.isTruthy_result hok] at htruthy
      cases htruthy
  | written hok htruthy =>
      rw [hline.isTruthy_result hok] at htruthy
      cases htruthy

/-- A chain that fails leaves the disk and the output as they were. -/
theorem untouched (h : Conclusion tools task options disk stop t) {f : Fault}
    (hfault : (task.translation options).1 = .error f) : Untouched disk t := by
  cases h with
  | broken => exact ⟨rfl, rfl⟩
  | fruitless => exact ⟨rfl, rfl⟩
  | unrendered hok => cases hok.symm.trans hfault
  | written hok => cases hok.symm.trans hfault

theorem completed (h : Conclusion tools task options disk (.ok ()) t) :
    task.Completed tools options disk t := by
  cases h with
  | written hok htruthy hrender hwrite =>
      obtain ⟨text, hstream, hdelivered⟩ := runFrom_writeManifests_eq_ok_iff.mp hwrite
      have hyields : task.Yields options _ := ⟨_, hok, htruthy, hrender⟩
      cases hdelivered with
      | printed htarget => exact .printed hyields hstream htarget
      | stored htarget hplace hcontent =>
          exact .stored hyields hstream htarget hcontent (Disk.stored_write hplace _)

end Conclusion

/-! ## The whole run -/

theorem ending_eq_ok_iff (hstatus : status ≠ 0) :
    ending stop = .ok status ↔ stop = .error (.exit status) := by
  rcases stop with (_ | _) | _ <;> simp [ending, hstatus.symm]

namespace Course

/-- A command ends with status 2 or 1, because no workload is named or a chain came to nothing. -/
theorem of_exit (h : Course tools options disk (.error (.exit status)) t) :
    (status = 2 ∧ LacksIdentity tools options disk ∧ Untouched disk t) ∨
      status = 1 ∧ ∃ (task : Task) (line : Text), task.IsSet tools options disk ∧
        task.Fruitless options line ∧ t = ⟨disk, [], task.report options ++ line⟩ := by
  cases h with
  | unidentified hconfig hworkload hmissing =>
      exact .inl ⟨rfl, ⟨_, _, hconfig, hworkload, hmissing⟩, rfl, rfl⟩
  | concluded htask h =>
      obtain ⟨hstatus, line, hline, ht⟩ := h.of_exit
      exact .inr ⟨hstatus, _, line, htask, hline, ht⟩

theorem of_exit_one (h : Course tools options disk (.error (.exit 1)) t) :
    ∃ (task : Task) (line : Text), task.IsSet tools options disk ∧
      task.Fruitless options line ∧ t = ⟨disk, [], task.report options ++ line⟩ := by
  rcases h.of_exit with ⟨hstatus, -⟩ | ⟨-, hfruitless⟩
  · cases hstatus
  · exact hfruitless

theorem of_exit_two (h : Course tools options disk (.error (.exit 2)) t) :
    LacksIdentity tools options disk ∧ Untouched disk t := by
  rcases h.of_exit with ⟨-, hlacks⟩ | ⟨hstatus, -⟩
  · exact hlacks
  · cases hstatus

theorem of_lacksIdentity (h : Course tools options disk stop t)
    (hlacks : LacksIdentity tools options disk) : stop = .error (.exit 2) := by
  obtain ⟨config, workload, hconfig, hworkload, hmissing⟩ := hlacks
  cases h with
  | unconfigured hfault => cases hconfig.symm.trans hfault
  | unbuilt hconfig' hfault =>
      cases hconfig.symm.trans hconfig'
      cases hworkload.symm.trans hfault
  | unidentified => rfl
  | unread hconfig' hworkload' hidentified =>
      cases hconfig.symm.trans hconfig'
      cases hworkload.symm.trans hworkload'
      rw [hmissing] at hidentified
      cases hidentified
  | concluded htask =>
      rw [htask.workload_eq hconfig hworkload, htask.identified] at hmissing
      cases hmissing

/-- What a command reads before it runs the chain fails without a trace on the disk or the
output. -/
theorem untouched_of_fault (h : Course tools options disk stop t) {f : Fault}
    (hfault : configuration tools options disk = .error f ∨ source tools options disk = .error f) :
    Untouched disk t := by
  cases h with
  | unconfigured => exact ⟨rfl, rfl⟩
  | unbuilt => exact ⟨rfl, rfl⟩
  | unidentified => exact ⟨rfl, rfl⟩
  | unread => exact ⟨rfl, rfl⟩
  | concluded htask =>
      rcases hfault with hfault | hfault
      · cases htask.config.symm.trans hfault
      · cases htask.manifests.symm.trans hfault

/-- A command that ends early has written nothing. -/
theorem untouched (h : Course tools options disk stop t)
    (hearly : EndsEarly tools options disk (ending stop)) : Untouched disk t := by
  generalize hended : ending stop = ended at hearly
  cases hearly with
  | fruitless =>
      rw [ending_eq_ok_iff Nat.one_ne_zero] at hended
      subst hended
      obtain ⟨task, line, -, -, rfl⟩ := h.of_exit_one
      exact ⟨rfl, rfl⟩
  | unidentified =>
      rw [ending_eq_ok_iff (by decide)] at hended
      subst hended
      exact h.of_exit_two.2
  | unconfigured hfault => exact h.untouched_of_fault (.inl hfault)
  | unread hfault => exact h.untouched_of_fault (.inr hfault)
  | broken htask hfault => exact (htask.conclusion h).untouched hfault

/-- Only a task that was set gets as far as the end. -/
theorem completed (h : Course tools options disk (.ok ()) t) :
    ∃ task : Task, task.IsSet tools options disk ∧ task.Completed tools options disk t := by
  cases h with
  | concluded htask hconclusion => exact ⟨_, htask, hconclusion.completed⟩

/-- A command ends with status 0 only if nothing stopped it. -/
theorem of_ending_zero (h : Course tools options disk stop t) (hending : ending stop = .ok 0) :
    stop = .ok () := by
  rcases stop with (status | f) | _
  · cases hending
    rcases h.of_exit with ⟨hstatus, -⟩ | ⟨hstatus, -⟩
    · cases hstatus
    · cases hstatus
  · cases hending
  · rfl

theorem contract (h : Course tools options disk stop t) :
    Contract tools options disk (ending stop) t where
  untouched := h.untouched
  unidentified_iff := by
    rw [ending_eq_ok_iff (by decide)]
    refine ⟨?_, h.of_lacksIdentity⟩
    rintro rfl
    exact h.of_exit_two.1
  fruitless_iff := by
    rw [ending_eq_ok_iff Nat.one_ne_zero]
    constructor
    · rintro rfl
      obtain ⟨task, line, htask, hline, -⟩ := h.of_exit_one
      exact ⟨task, htask, line, hline⟩
    · rintro ⟨task, htask, line, hline⟩
      exact (htask.conclusion h).of_fruitless hline
  explained hone := by
    rw [ending_eq_ok_iff Nat.one_ne_zero] at hone
    subst hone
    obtain ⟨task, line, htask, hline, rfl⟩ := h.of_exit_one
    exact ⟨task, htask, line, hline, rfl⟩
  completed hzero := by
    obtain rfl := h.of_ending_zero hzero
    exact h.completed

end Course

/-- Whatever tools a command is given, it keeps its contract when it is called in order. It ends
with status 2 exactly if its workload lacks an identity, and with status 1 exactly if its chain
comes to nothing; then, and if the configuration, the manifests or the chain fails, disk and output
are untouched. With status 1 it has reported the manifests, every warning and the reason. With
status 0 it has reported the manifests and every warning, and has written the stream of the result:
to its output, or to the file that the options name, where it can be read back after the header, and
to no other. -/
theorem runOn_ofWords (tools : Tools) (disk : Disk) {words : List Text}
    (hwords : tools.parse words = .ok (.run options)) :
    Contract tools options disk ((ofWords tools words).runOn ⟨disk, [], []⟩).1
      ((ofWords tools words).runOn ⟨disk, [], []⟩).2 := by
  rw [runOn_eq, ofWords, hwords]
  exact (course_carryOut tools options disk).contract

/-- A manifest is written as it was read, after the header, and nothing but the output changes. -/
theorem runOn_ofWords_stored :
    let words : List Text := ["--from-dir", "in", "--workload-name", "w", "--workload-uid", "u",
      "--translators", "service-injector", "-o", "out"]
    -- The file holds the text `k: 1`.
    let disk := (Disk.empty []).write ["in", "a.yaml"] [107, 58, 32, 49]
    let run := (ofWords .standard words).runOn ⟨disk, [], []⟩
    ∃ options, Tools.standard.parse words = .ok (.run options) ∧ run.1 = .ok 0 ∧ run.2.out = [] ∧
      (run.2.disk.read "out").toOption = (header ++ Text.ofString "k: 1\n").utf8? ∧
      ∀ other, other ≠ [Text.ofString "out"] → ∀ c,
        run.2.disk.root.at? other = some (.file c) ↔ disk.root.at? other = some (.file c) := by
  intro words disk run
  have hwords : Tools.standard.parse words = .ok (.run
      ⟨some "in", ⟨some "w", none, some "u"⟩, some "oamtranslate.yaml", some "service-injector",
        some "out"⟩) := by rfl
  have hcontract := runOn_ofWords .standard disk hwords
  have hrun : run.1.toOption = some 0 ∧
      (run.2.disk.read "out").toOption = (header ++ Text.ofString "k: 1\n").utf8? := by
    decide +kernel
  obtain ⟨hstatus, hread⟩ := hrun
  have hzero : run.1 = .ok 0 := by
    cases hending : run.1 with
    | error f =>
        rw [hending] at hstatus
        cases hstatus
    | ok status =>
        rw [hending] at hstatus
        cases hstatus
        rfl
  obtain ⟨task, -, hcompleted⟩ := hcontract.completed hzero
  change task.Completed .standard _ disk run.2 at hcompleted
  generalize run.2 = t at hread hcompleted ⊢
  cases hcompleted with
  | printed _ _ htarget => cases htarget
  | stored _ _ htarget _ hstored =>
      cases htarget
      exact ⟨_, hwords, hzero, rfl, hread, hstored.others _ (by rfl)⟩

end Command

end ManifestChain
