import ManifestChain.Command
import ManifestChain.Proofs.Files.Disk

/-!
# Commands step by step

What a command yields and leaves behind is that of its steps in turn, up to the first one that stops
it. Of all steps only the delivery of a text touches the disk or the output.
-/

namespace ManifestChain

namespace Command

variable {α β : Type} {t : Terminal}

/-- What a command yields, or what stops it, and what it leaves behind. -/
def runFrom (command : Command α) (t : Terminal) : Except Stop α × Terminal :=
  StateT.run (ExceptT.run command) t

/-- How a command ends that was stopped or not. -/
def ending : Except Stop Unit → Except Fault Nat
  | .ok _ => .ok 0
  | .error (.exit status) => .ok status
  | .error (.fault f) => .error f

theorem runOn_eq (command : Command Unit) (t : Terminal) :
    command.runOn t = (ending (command.runFrom t).1, (command.runFrom t).2) := by
  rw [runOn, runFrom]
  split
  next h => rw [h]; rfl
  next h => rw [h]; rfl
  next h => rw [h]; rfl

@[simp] theorem runFrom_pure (x : α) (t : Terminal) :
    (pure x : Command α).runFrom t = (.ok x, t) := rfl

@[simp] theorem runFrom_get (t : Terminal) : (get : Command Terminal).runFrom t = (.ok t, t) := rfl

@[simp] theorem runFrom_set (t t' : Terminal) :
    (set t' : Command Unit).runFrom t = (.ok (), t') := rfl

@[simp] theorem runFrom_print (text : Text) (t : Terminal) :
    (print text).runFrom t = (.ok (), { t with out := t.out ++ text }) := rfl

@[simp] theorem runFrom_printErr (text : Text) (t : Terminal) :
    (printErr text).runFrom t = (.ok (), { t with err := t.err ++ text }) := rfl

@[simp] theorem runFrom_exit (status : Nat) (t : Terminal) :
    (exit status : Command α).runFrom t = (.error (.exit status), t) := rfl

@[simp] theorem runFrom_fail (f : Fault) (t : Terminal) :
    (fail f : Command α).runFrom t = (.error (.fault f), t) := rfl

theorem runFrom_bind (x : Command α) (k : α → Command β) (t : Terminal) :
    (x >>= k).runFrom t = match x.runFrom t with
      | (.ok a, mid) => (k a).runFrom mid
      | (.error stop, mid) => (.error stop, mid) := by
  simp only [runFrom, ExceptT.run_bind, StateT.run_bind]
  generalize (ExceptT.run x).run t = outcome
  obtain ⟨_ | _, mid⟩ := outcome <;> rfl

/-- A sequence yields what its second part yields, on what the first one left behind. -/
theorem runFrom_bind_eq_ok_iff {x : Command α} {k : α → Command β} {r : β} {t' : Terminal} :
    (x >>= k).runFrom t = (.ok r, t') ↔
      ∃ a mid, x.runFrom t = (.ok a, mid) ∧ (k a).runFrom mid = (.ok r, t') := by
  rw [runFrom_bind]
  rcases x.runFrom t with ⟨stop | a, mid⟩
  · simp
  · exact ⟨fun h => ⟨a, mid, rfl, h⟩, fun ⟨_, _, heq, h⟩ => by cases heq; exact h⟩

@[simp] theorem runFrom_ofExcept (x : Except Fault α) (t : Terminal) :
    (ofExcept x).runFrom t = (x.mapError .fault, t) := by
  cases x <;> rfl

@[simp] theorem runFrom_path (argument : Option Text) (t : Terminal) : (path argument).runFrom t =
    match argument with
    | some p => (.ok p, t)
    | none => (.error (.fault .wrongKind), t) := by
  cases argument <;> rfl

/-! ## Messages -/

/-- The line that shows a warning. -/
def warningLine (warning : Text) : Text := "⚠ " ++ warning ++ "\n"

/-- Warnings are printed one after the other, each once. -/
@[simp] theorem runFrom_printWarnings (warnings : List Text) (t : Terminal) :
    (printWarnings warnings).runFrom t =
      (.ok (), { t with err := t.err ++ warnings.flatMap warningLine }) := by
  induction warnings generalizing t with
  | nil => simp [printWarnings]
  | cons warning rest ih =>
      simp [printWarnings, runFrom_bind, ih, warningLine]

@[simp] theorem runFrom_usageError (f : UsageFault) (t : Terminal) :
    (usageError f : Command α).runFrom t = (.error (.exit 2), { t with
      err := t.err ++ (Help.usage ++ Help.program ++ ": error: " ++ f.text ++ "\n") }) := by
  rw [usageError, runFrom_bind, runFrom_printErr]
  rfl

/-! ## Writing -/

/-- The file that an output names; the empty text names none. -/
def target? (output : Option Text) : Option Text := output.filter fun path => !path.isEmpty

/-- A text was written out: printed, or stored after the header in the file that the output
names. -/
inductive Delivered (text : Text) (t : Terminal) (output : Option Text) : Terminal → Prop
  | printed (htarget : target? output = none) :
      Delivered text t output { t with out := t.out ++ text }
  | stored {path : Text} {place : List Text} {content : List UInt8}
      (htarget : target? output = some path) (hplace : t.disk.placeToWrite path = .ok place)
      (hcontent : (header ++ text).utf8? = some content) :
      Delivered text t output
        { t with disk := t.disk.write place content, err := t.err ++ ("Wrote " ++ path ++ "\n") }

theorem runFrom_writeFile_eq_ok_iff {path text : Text} {u : Unit} {t' : Terminal} :
    (writeFile path text).runFrom t = (.ok u, t') ↔ ∃ place content,
      t.disk.placeToWrite path = .ok place ∧ text.utf8? = some content ∧
        t' = { t with disk := t.disk.write place content } := by
  rw [writeFile, runFrom_bind, runFrom_get]
  simp only [runFrom_bind, runFrom_ofExcept]
  cases t.disk.placeToWrite path with
  | error f => simp [Except.mapError]
  | ok place =>
      simp only [Except.mapError, Except.ok.injEq]
      cases text.utf8? with
      | none => simp
      | some content => simp [eq_comm]

theorem runFrom_failIf_eq_ok_iff {fault : Option Fault} {u : Unit} {t' : Terminal} :
    (failIf fault).runFrom t = (.ok u, t') ↔ fault = none ∧ t' = t := by
  cases fault <;> simp [failIf, eq_comm]

theorem target?_eq_none {output : Option Text} (h : ∀ c path, output ≠ some (c :: path)) :
    target? output = none := by
  rw [target?, Option.filter_eq_none_iff]
  rintro (_ | ⟨c, path⟩) hsome
  · simp
  · exact (h c path hsome).elim

/-- Manifests are written if all of them have a form in YAML, and then their stream is. -/
theorem runFrom_writeManifests_eq_ok_iff {write : List Value → List Char × Option Fault}
    {manifests : Value} {output : Option Text} {t' : Terminal} :
    (writeManifests write manifests output).runFrom t = (.ok (), t') ↔
      ∃ text, stream write manifests = (text, none) ∧ Delivered text t output t' := by
  rw [writeManifests]
  generalize stream write manifests = written
  obtain ⟨text, fault⟩ := written
  simp only
  split
  next c path =>
    simp only [runFrom_bind_eq_ok_iff, runFrom_writeFile_eq_ok_iff, runFrom_failIf_eq_ok_iff,
      runFrom_printErr]
    constructor
    · rintro ⟨_, _, ⟨place, content, hplace, hcontent, rfl⟩, _, _, ⟨rfl, rfl⟩, ⟨⟩⟩
      exact ⟨text, rfl, .stored rfl hplace hcontent⟩
    · rintro ⟨_, ⟨⟩, hdelivered⟩
      cases hdelivered with
      -- A path that is not empty is the target.
      | printed htarget => cases htarget
      | stored htarget hplace hcontent =>
          cases htarget
          exact ⟨(), _, ⟨_, _, hplace, hcontent, rfl⟩, (), _, ⟨rfl, rfl⟩, rfl⟩
  next houtput =>
    have htarget : target? output = none := target?_eq_none houtput
    simp only [runFrom_bind_eq_ok_iff, runFrom_print, runFrom_failIf_eq_ok_iff]
    constructor
    · rintro ⟨_, _, ⟨⟩, rfl, rfl⟩
      exact ⟨text, rfl, .printed htarget⟩
    · rintro ⟨_, ⟨⟩, hdelivered⟩
      cases hdelivered with
      | printed => exact ⟨(), _, rfl, rfl, rfl⟩
      | stored hsome =>
          rw [htarget] at hsome
          cases hsome

/-! ## Commands that end with no status of their own -/

/-- A command that nothing but a fault stops. -/
def Exitless (command : Command α) : Prop :=
  ∀ t status, (command.runFrom t).1 ≠ .error (.exit status)

namespace Exitless

theorem bind {x : Command α} {k : α → Command β} (hx : x.Exitless) (hk : ∀ a, (k a).Exitless) :
    (x >>= k).Exitless := by
  intro t status
  rw [runFrom_bind]
  cases hrun : x.runFrom t with
  | mk outcome mid =>
      cases outcome with
      | ok a => exact hk a mid status
      | error stop => simpa [hrun] using hx t status

theorem ofExcept (x : Except Fault α) : (ofExcept x).Exitless := by
  intro t status
  cases x <;> simp [Except.mapError]

theorem failIf (fault : Option Fault) : (failIf fault).Exitless := by
  intro t status
  cases fault <;> simp [Command.failIf]

theorem writeFile (path text : Text) : (writeFile path text).Exitless := by
  refine bind (fun t status => by simp) fun t => bind (ofExcept _) fun place => ?_
  cases text.utf8? with
  | none => exact fun _ _ => by simp
  | some content => exact fun _ _ => by simp

/-- Writing fails or comes to its end. -/
theorem writeManifests (write : List Value → List Char × Option Fault) (manifests : Value)
    (output : Option Text) : (writeManifests write manifests output).Exitless := by
  rw [Command.writeManifests]
  generalize stream write manifests = written
  obtain ⟨text, fault⟩ := written
  simp only
  split
  next => exact bind (writeFile _ _) fun _ => bind (failIf _) fun _ _ _ => by simp
  next => exact bind (fun _ _ => by simp) fun _ => failIf _

end Exitless

end Command

end ManifestChain
