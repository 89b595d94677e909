import ManifestChain.Proofs.Command
import ManifestChain.Proofs.Json.Encoding
import ManifestChain.Proofs.Yaml.Forms

/-!
# Manifests in a file

The file that manifests are written to loses what it held as soon as it is opened. A manifest that
has no form in YAML is met only when the documents before it have been written, so a command that
fails there leaves a file that ends before that manifest. Nothing else changes.
-/

namespace ManifestChain

namespace Command

open Yaml

variable {values : List Value} {output : Option Text} {path text : Text} {place : List Text}
  {content : List UInt8} {stop : Except Stop Unit} {t t' : Terminal}

/-! ## Texts of files -/

theorem isEncodable_printed (trees : List Tree) : (printed trees).isEncodable = true :=
  Text.isEncodable_ofChars _

theorem isEncodable_of_isClosing {closing : Text} (h : IsClosing closing) :
    closing.isEncodable = true := by
  rcases h with rfl | rfl <;> rfl

/-- The header in front of a text with an encoding. -/
theorem exists_utf8?_header (h : text.isEncodable = true) :
    ∃ content, (header ++ text).utf8? = some content := by
  have hencodable : (header ++ text).isEncodable = true := by
    rw [Text.isEncodable_append, h, Bool.and_true]
    rfl
  rw [← Option.ne_none_iff_exists', ne_eq, Text.utf8?_eq_none_iff, hencodable]
  exact Bool.true_eq_false.mp

theorem runFrom_writeFile (hplace : t.disk.placeToWrite path = .ok place)
    (hcontent : text.utf8? = some content) : (writeFile path text).runFrom t =
      (.ok (), { t with disk := t.disk.write place content }) :=
  runFrom_writeFile_eq_ok_iff.mpr ⟨place, content, hplace, hcontent, rfl⟩

theorem runFrom_writeFile_of_unopened {f : Fault}
    (hfault : t.disk.placeToWrite path = .error f) :
    (writeFile path text).runFrom t = (.error (.fault f), t) := by
  simp only [writeFile, runFrom_bind, runFrom_get, runFrom_ofExcept, hfault]
  rfl

theorem exists_of_target? (h : target? output = some path) :
    ∃ c rest, path = c :: rest ∧ output = some (c :: rest) := by
  obtain ⟨houtput, hne⟩ := Option.filter_eq_some_iff.mp h
  obtain _ | ⟨c, rest⟩ := path
  · cases hne
  · exact ⟨c, rest, rfl, houtput⟩

/-! ## Step by step -/

/-- Opens the file of a path, which is empty then. -/
def openFile (path : Text) : Command (List Text) := do
  let t ← get
  let place ← ofExcept (t.disk.placeToWrite path)
  set { t with disk := t.disk.write place [] }
  return place

/-- Makes a text all that the file at a place holds. -/
def hold (place : List Text) (text : Text) : Command Unit := do
  let t ← get
  match text.utf8? with
  | some content => set { t with disk := t.disk.write place content }
  | none => fail .unencodable

/-- What a file holds when a pen has written documents after the header. -/
def fileText (p : Pen) : Text := header ++ Text.ofChars p.out.reverse

/-- Writes documents to the file at a place, each one as soon as its value has a tree. -/
def streamTo (place : List Text) : Bool → List Value → Pen → Command Unit
  | _, [], p => hold place (fileText (Tree.close p))
  | first, v :: vs, p => do
    let tree ← ofExcept (Tree.ofValue v)
    hold place (fileText (tree.printDocument first p))
    streamTo place false vs (tree.printDocument first p)

/-- Writes manifests as they come: the file is opened, then gets the header and one document after
the other. -/
def writeStepwise (values : List Value) (path : Text) : Command Unit := do
  let place ← openFile path
  hold place header
  streamTo place true values .start
  printErr ("Wrote " ++ path ++ "\n")

theorem exists_utf8?_fileText (p : Pen) : ∃ content, (fileText p).utf8? = some content :=
  exists_utf8?_header (Text.isEncodable_ofChars _)

theorem runFrom_openFile (hplace : t.disk.placeToWrite path = .ok place) :
    (openFile path).runFrom t = (.ok place, { t with disk := t.disk.write place [] }) := by
  simp only [openFile, runFrom_bind, runFrom_get, runFrom_ofExcept, hplace]
  rfl

theorem runFrom_hold (hcontent : text.utf8? = some content) : (hold place text).runFrom t =
    (.ok (), { t with disk := t.disk.write place content }) := by
  simp only [hold, runFrom_bind, runFrom_get, hcontent, runFrom_set]

/-- When a value without a tree is met, the file holds what the pen wrote up to there. -/
theorem runFrom_streamTo (place : List Text) (first : Bool) (values : List Value) {p : Pen}
    (t : Terminal) (hcontent : (fileText p).utf8? = some content) : ∃ written,
      (fileText (writeFrom first values p).1).utf8? = some written ∧
        (streamTo place first values p).runFrom { t with disk := t.disk.write place content } =
          (failIf (writeFrom first values p).2).runFrom
            { t with disk := t.disk.write place written } := by
  induction values generalizing first p content with
  | nil =>
      obtain ⟨written, hwritten⟩ := exists_utf8?_fileText (Tree.close p)
      refine ⟨written, hwritten, ?_⟩
      rw [streamTo, runFrom_hold hwritten, Disk.write_write]
      rfl
  | cons v vs ih =>
      rw [streamTo, writeFrom, runFrom_bind, runFrom_ofExcept]
      cases hv : Tree.ofValue v with
      | error f => exact ⟨content, hcontent, rfl⟩
      | ok tree =>
          obtain ⟨middle, hmiddle⟩ := exists_utf8?_fileText (tree.printDocument first p)
          obtain ⟨written, hwritten, hrun⟩ := ih false hmiddle
          refine ⟨written, hwritten, ?_⟩
          simp only [Except.mapError, runFrom_bind, runFrom_hold hmiddle, Disk.write_write]
          exact hrun

/-- To write manifests as they come does what it does to write their stream at once. -/
theorem runFrom_writeStepwise (mark : Mark) (values : List Value) (t : Terminal)
    (htarget : target? output = some path) : (writeStepwise values path).runFrom t =
      (writeManifests Yaml.write (.list mark values) output).runFrom t := by
  obtain ⟨c, rest, rfl, rfl⟩ := exists_of_target? htarget
  have hstream : stream Yaml.write (.list mark values) =
      (Yaml.write values).map Text.ofChars id := rfl
  simp only [writeStepwise, writeManifests, hstream, runFrom_bind]
  cases hplace : t.disk.placeToWrite (c :: rest) with
  | error f =>
      rw [runFrom_writeFile_of_unopened hplace]
      simp only [openFile, runFrom_bind, runFrom_get, runFrom_ofExcept, hplace]
      rfl
  | ok place =>
      obtain ⟨content, hheader⟩ := exists_utf8?_fileText .start
      obtain ⟨written, hwritten, hrun⟩ := runFrom_streamTo place true values t hheader
      have hstart : header.utf8? = some content := by
        rw [← hheader]
        exact congrArg Text.utf8? (List.append_nil header).symm
      have htext : (header ++ ((Yaml.write values).map Text.ofChars id).1).utf8? = some written :=
        hwritten
      rw [runFrom_openFile hplace, runFrom_writeFile hplace htext]
      simp only [runFrom_hold hstart, Disk.write_write, hrun]
      rfl

/-! ## How writing ends -/

/-- How the writing of manifests to a file ends, and what it leaves behind. -/
inductive Writing (values : List Value) (path : Text) (t : Terminal) :
    Except Stop Unit → Terminal → Prop
  | unopened {f : Fault} (hfault : t.disk.placeToWrite path = .error f) :
      Writing values path t (.error (.fault f)) t
  | broken {place : List Text} {before after : List Value} {v : Value} {trees : List Tree}
      {f : Fault} {content : List UInt8} (hplace : t.disk.placeToWrite path = .ok place)
      (hvalues : values = before ++ v :: after) (hbefore : before.mapM Tree.ofValue = .ok trees)
      (hv : Tree.ofValue v = .error f)
      (hcontent : (header ++ printed trees).utf8? = some content) :
      Writing values path t (.error (.fault f)) { t with disk := t.disk.write place content }
  | finished {place : List Text} {trees : List Tree} {closing : Text} {content : List UInt8}
      (hplace : t.disk.placeToWrite path = .ok place)
      (hvalues : values.mapM Tree.ofValue = .ok trees) (hclosing : IsClosing closing)
      (hstream : stream Yaml.write (.ofList values) = (printed trees ++ closing, none))
      (hcontent : (header ++ (printed trees ++ closing)).utf8? = some content) :
      Writing values path t (.ok ())
        { t with disk := t.disk.write place content, err := t.err ++ ("Wrote " ++ path ++ "\n") }

/-- Every way in which manifests can be written to a file. -/
theorem writing_writeManifests (mark : Mark) (values : List Value) (t : Terminal)
    (htarget : target? output = some path) :
    Writing values path t ((writeManifests Yaml.write (.list mark values) output).runFrom t).1
      ((writeManifests Yaml.write (.list mark values) output).runFrom t).2 := by
  obtain ⟨c, rest, rfl, rfl⟩ := exists_of_target? htarget
  have hstream : stream Yaml.write (.list mark values) =
      (Yaml.write values).map Text.ofChars id := rfl
  simp only [writeManifests, hstream, runFrom_bind]
  cases hplace : t.disk.placeToWrite (c :: rest) with
  | error f =>
      rw [runFrom_writeFile_of_unopened hplace]
      exact .unopened hplace
  | ok place =>
      cases htrees : values.mapM Tree.ofValue with
      | ok trees =>
          obtain ⟨closing, hclosing, hwrite⟩ := write_of_mapM_eq_ok htrees
          have hencodable : (printed trees ++ closing).isEncodable = true := by
            rw [Text.isEncodable_append, isEncodable_printed, isEncodable_of_isClosing hclosing]
            rfl
          obtain ⟨content, hcontent⟩ := exists_utf8?_header hencodable
          rw [hwrite, runFrom_writeFile hplace hcontent]
          exact .finished hplace htrees hclosing hwrite hcontent
      | error f =>
          obtain ⟨before, v, after, rfl, hformed, hv⟩ := Fault.mapM_eq_error_iff.mp htrees
          obtain ⟨trees, hbefore⟩ := Fault.exists_mapM_eq_ok_iff.mpr hformed
          obtain ⟨content, hcontent⟩ := exists_utf8?_header (isEncodable_printed trees)
          rw [write_of_fault hbefore hv after, runFrom_writeFile hplace hcontent]
          exact .broken hplace rfl hbefore hv hcontent

/-! ## What writing owes -/

/-- The file of a path holds the header and a text. -/
def Holds (disk : Disk) (path text : Text) : Prop :=
  ∃ content, (header ++ text).utf8? = some content ∧ disk.read path = .ok content

/-- The file of a path holds the documents of all values, and what closes their stream. -/
inductive Full (values : List Value) (path : Text) (t t' : Terminal) : Prop
  | of {trees : List Tree} {closing : Text} (hvalues : values.mapM Tree.ofValue = .ok trees)
      (hclosing : IsClosing closing)
      (hstream : stream Yaml.write (.ofList values) = (printed trees ++ closing, none))
      (hholds : Holds t'.disk path (printed trees ++ closing))
      (herr : t'.err = t.err ++ ("Wrote " ++ path ++ "\n"))

/-- The file of a path ends before the first value without a form, which some part of it lacks. -/
inductive BrokenOff (values : List Value) (path : Text) (t t' : Terminal) : Stop → Prop
  | of {before after : List Value} {v : Value} {trees : List Tree} {f : Fault}
      (hvalues : values = before ++ v :: after) (hbefore : before.mapM Tree.ofValue = .ok trees)
      (hv : Tree.ofValue v = .error f)
      (hrefused : Value.MarksAgree v.parts → ∃ part ∈ v.parts, part.refusal? = some f)
      (hholds : Holds t'.disk path (printed trees)) (herr : t'.err = t.err) :
      BrokenOff values path t t' (.fault f)

/-- What the writing of values to the file of a path owes, by how it ends and what it leaves
behind. -/
structure FileContract (values : List Value) (path : Text) (t : Terminal)
    (stop : Except Stop Unit) (t' : Terminal) : Prop where
  finished_iff : stop = .ok () ↔ (∃ place, t.disk.placeToWrite path = .ok place) ∧
    ∀ v ∈ values, ∃ tree, Tree.ofValue v = .ok tree
  /-- A value has a form exactly if no part of it, at any depth, is without one. -/
  formed_iff : ∀ v ∈ values, Value.MarksAgree v.parts →
    ((∃ tree, Tree.ofValue v = .ok tree) ↔ ∀ part ∈ v.parts, part.refusal? = none)
  finished : stop = .ok () → Full values path t t'
  unopened : ∀ f, t.disk.placeToWrite path = .error f → stop = .error (.fault f) ∧ t' = t
  brokenOff : ∀ reason place, t.disk.placeToWrite path = .ok place → stop = .error reason →
    BrokenOff values path t t' reason
  out_eq : t'.out = t.out
  others : t.disk.KeepsOthers t'.disk path

namespace Writing

/-- Writing comes to its end if the file can be opened and all manifests have trees. -/
theorem eq_ok_iff (h : Writing values path t stop t') : stop = .ok () ↔
    (∃ place, t.disk.placeToWrite path = .ok place) ∧
      ∀ v ∈ values, ∃ tree, Tree.ofValue v = .ok tree := by
  rw [← Fault.exists_mapM_eq_ok_iff]
  cases h with
  | unopened hfault => simp [hfault]
  | @broken _ before after v _ f _ _ hvalues _ hv =>
      have hstuck : ¬∃ trees, values.mapM Tree.ofValue = .ok trees := by
        rw [Fault.exists_mapM_eq_ok_iff]
        intro hall
        obtain ⟨tree, htree⟩ := hall v (by simp [hvalues])
        cases hv.symm.trans htree
      simp [hstuck]
  | finished hplace hvalues => simp [hplace, hvalues]

theorem full (h : Writing values path t (.ok ()) t') : Full values path t t' := by
  cases h with
  | finished hplace hvalues hclosing hstream hcontent =>
      exact .of hvalues hclosing hstream ⟨_, hcontent, Disk.read_write hplace _⟩ rfl

theorem of_unopened (h : Writing values path t stop t') {f : Fault}
    (hfault : t.disk.placeToWrite path = .error f) : stop = .error (.fault f) ∧ t' = t := by
  cases h with
  | unopened hfault' =>
      cases hfault.symm.trans hfault'
      exact ⟨rfl, rfl⟩
  | broken hplace => cases hfault.symm.trans hplace
  | finished hplace => cases hfault.symm.trans hplace

/-- A file that was opened holds the documents before the first manifest without a tree. -/
theorem brokenOff {reason : Stop} (h : Writing values path t (.error reason) t')
    (hplace : t.disk.placeToWrite path = .ok place) : BrokenOff values path t t' reason := by
  cases h with
  | unopened hfault => cases hplace.symm.trans hfault
  | broken hplace' hvalues hbefore hv hcontent =>
      refine .of hvalues hbefore hv (fun hagree => ?_) ⟨_, hcontent, Disk.read_write hplace' _⟩ rfl
      have hfirst := Tree.of?_ofValue hagree
      rw [hv] at hfirst
      exact List.exists_of_findSome?_eq_some hfirst.symm

theorem out_eq (h : Writing values path t stop t') : t'.out = t.out := by
  cases h <;> rfl

/-- No file but the one at the place of the path changes. -/
theorem others (h : Writing values path t stop t') : t.disk.KeepsOthers t'.disk path := by
  cases h with
  | unopened => exact .refl _ _
  | broken hplace => exact (Disk.stored_write hplace _).others
  | finished hplace => exact (Disk.stored_write hplace _).others

theorem contract (h : Writing values path t stop t') : FileContract values path t stop t' where
  finished_iff := h.eq_ok_iff
  formed_iff v _ := Tree.exists_ofValue_iff
  finished hok := by
    subst hok
    exact h.full
  unopened f := h.of_unopened
  brokenOff reason place hplace hreason := by
    subst hreason
    exact h.brokenOff hplace
  out_eq := h.out_eq
  others := h.others

end Writing

theorem runFrom_writeManifests_of_target?_eq_none (manifests : Value) (t : Terminal)
    (htarget : target? output = none) :
    ((writeManifests Yaml.write manifests output).runFrom t).2.disk = t.disk := by
  rw [writeManifests]
  generalize stream Yaml.write manifests = written
  obtain ⟨text, fault⟩ := written
  simp only
  split
  next => cases htarget
  next =>
    simp only [runFrom_bind, runFrom_print]
    cases fault <;> rfl

/-- What the writing of manifests does to the file that the output names, whatever it held. It does
the same as to write them as they come. It comes to its end exactly if the file can be opened and no
part of a manifest, at any depth, is without a form; then the file holds the header and the stream
of all manifests. If the file cannot be opened, nothing changes. If a manifest has no form, the file
holds the header and the documents before that manifest in place of what it held. No other file
changes and nothing is printed, and if the output names no file, none changes. -/
theorem runFrom_writeManifests_file (mark : Mark) (values : List Value) (output : Option Text)
    (t : Terminal) :
    let run := (writeManifests Yaml.write (.list mark values) output).runFrom t
    (target? output = none → run.2.disk = t.disk) ∧
    ∀ path, target? output = some path →
      (writeStepwise values path).runFrom t = run ∧ FileContract values path t run.1 run.2 := by
  intro run
  refine ⟨runFrom_writeManifests_of_target?_eq_none _ t, fun path htarget => ⟨?_, ?_⟩⟩
  · exact runFrom_writeStepwise mark values t htarget
  · exact (writing_writeManifests mark values t htarget).contract

/-- The object deep in the second of three manifests is met when the first one has been written in
place of what the file held. -/
theorem runFrom_writeManifests_file_broken :
    let broken : Value := .ofEntries [("k", .int 2), ("x", .tuple [.null, .ofList [.foreign]])]
    let values : List Value := [.ofEntries [("k", .int 1)], broken, .null]
    -- The file holds the text `k: 0`.
    let disk := (Disk.empty []).write ["out"] [107, 58, 32, 48]
    let run := (writeManifests Yaml.write (.ofList values) (some "out")).runFrom ⟨disk, [], []⟩
    (∃ reason, run.1 = .error reason ∧ BrokenOff values "out" ⟨disk, [], []⟩ run.2 reason) ∧
      (run.2.disk.read "out").toOption = (header ++ Text.ofString "k: 1\n").utf8? := by
  intro broken values disk run
  obtain ⟨-, hfile⟩ := runFrom_writeManifests_file none values (some "out") ⟨disk, [], []⟩
  obtain ⟨-, hcontract⟩ := hfile "out" rfl
  change FileContract values "out" _ run.1 run.2 at hcontract
  have hagree : Value.MarksAgree broken.parts := Value.marksAgree_of_unmarked (by decide)
  have hmem : broken ∈ values := by simp [values]
  have hnone : ¬∃ tree, Tree.ofValue broken = .ok tree := by
    rw [hcontract.formed_iff broken hmem hagree]
    intro hall
    cases hall .foreign (by simp [broken, Value.ofEntries, Value.ofList, Value.parts,
      Value.partsOfEntries, Value.partsOfItems])
  have hread : (run.2.disk.read "out").toOption = (header ++ Text.ofString "k: 1\n").utf8? := by
    decide +kernel
  refine ⟨?_, hread⟩
  cases hrun : run.1 with
  | ok _ => exact (hnone ((hcontract.finished_iff.mp hrun).2 broken hmem)).elim
  | error reason => exact ⟨reason, rfl, hcontract.brokenOff reason ["out"] (by rfl) hrun⟩

/-- A manifest that cannot be written costs the file what it held: only the header is left. -/
theorem writeManifests_loses_content :
    -- The file holds the text `k: 0`.
    let disk := (Disk.empty []).write ["out"] [107, 58, 32, 48]
    let run := (writeManifests Yaml.write (.ofList [.foreign]) (some "out")).runFrom ⟨disk, [], []⟩
    run.1 = .error (.fault .malformedYaml) ∧ disk.read "out" = .ok [107, 58, 32, 48] ∧
      (run.2.disk.read "out").toOption = header.utf8? ∧
      run.2.disk.read "out" ≠ disk.read "out" := by
  intro disk run
  have hread : (run.2.disk.read "out").toOption = header.utf8? := by decide +kernel
  refine ⟨rfl, rfl, hread, fun hsame => ?_⟩
  rw [hsame] at hread
  revert hread
  decide +kernel

end Command

end ManifestChain
