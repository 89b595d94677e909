import ManifestChain.Proofs.Fault
import ManifestChain.Proofs.Value.WellFormed
import ManifestChain.Yaml.Tree.Printer

/-!
# What has a form in YAML

A value has a tree exactly if each of its parts has a form, at whatever depth it stands; the fault
is that of the first part without one. A part whose mark came up before is not looked at again. It
is the part with that mark, so nothing is missed. A stream of documents is written up to the first
value that has no tree, of which it shows nothing.
-/

namespace ManifestChain

namespace Value

/-- Which object a value is, if it has a number. -/
def mark : Value → Mark
  | list mark _ => mark
  | set mark _ => mark
  | map mark _ => mark
  | date mark _ => mark
  | timestamp mark _ => mark
  | _ => none

/-- The values next below a value in a document, in the order in which they are written. -/
def components : Value → List Value
  | list _ items => items
  | tuple items => items
  | set _ items => items
  | map _ entries => entries.flatMap fun e => [e.1, e.2]
  | _ => []

/-- The fault of a value that has no form whatever its components are. -/
def refusal? : Value → Option Fault
  | null => none
  | bool _ => none
  | int n => Fault.of? (showInt n)
  | float _ => none
  | text _ => none
  | bytes _ => none
  | list _ _ => none
  | tuple _ => none
  | set _ _ => none
  | map _ _ => none
  | date _ _ => none
  | timestamp _ _ => none
  | _ => some .malformedYaml

mutual

/-- All that a document of a value consists of, in the order in which it is written: the value
itself, and what its components consist of. -/
def parts : Value → List Value
  | list mark items => list mark items :: partsOfItems items
  | tuple items => tuple items :: partsOfItems items
  | set mark items => set mark items :: partsOfItems items
  | map mark entries => map mark entries :: partsOfEntries entries
  | v => [v]

def partsOfItems : List Value → List Value
  | [] => []
  | v :: vs => parts v ++ partsOfItems vs

def partsOfEntries : Entries → List Value
  | [] => []
  | (k, v) :: es => parts k ++ (parts v ++ partsOfEntries es)

end

/-- Parts with the same mark are the same value, as a mark stands for one object. -/
def MarksAgree (parts : List Value) : Prop :=
  ∀ p ∈ parts, ∀ q ∈ parts, ∀ n, p.mark = some n → q.mark = some n → p = q

variable {v p : Value} {items : List Value}

/-! ## Parts -/

theorem partsOfItems_eq (items : List Value) : partsOfItems items = items.flatMap parts := by
  induction items with
  | nil => rfl
  | cons x xs ih => rw [partsOfItems, List.flatMap_cons, ih]

theorem partsOfEntries_eq (entries : Entries) :
    partsOfEntries entries = (entries.flatMap fun e => [e.1, e.2]).flatMap parts := by
  induction entries with
  | nil => rfl
  | cons e es ih =>
      obtain ⟨k, x⟩ := e
      rw [partsOfEntries, ih]
      rfl

theorem parts_eq (v : Value) : v.parts = v :: v.components.flatMap parts := by
  cases v with
  | list mark items => rw [parts, partsOfItems_eq, components]
  | tuple items => rw [parts, partsOfItems_eq, components]
  | set mark items => rw [parts, partsOfItems_eq, components]
  | map mark entries => rw [parts, partsOfEntries_eq, components]
  | _ => rfl

theorem parts_sublist_flatMap (hv : v ∈ items) :
    v.parts.Sublist (items.flatMap parts) :=
  List.sublist_flatten_of_mem (List.mem_map_of_mem hv)

theorem self_mem_parts (v : Value) : v ∈ v.parts := by
  rw [parts_eq]
  exact List.mem_cons_self

/-- A property of all values holds if every value has it whose components have it. -/
theorem components_induction {motive : Value → Prop}
    (next : ∀ v, (∀ x ∈ v.components, motive x) → motive v) (v : Value) : motive v := by
  induction v with
  | list mark items ih => exact next _ ih
  | tuple items ih => exact next _ ih
  | set mark items ih => exact next _ ih
  | map mark entries ih =>
      refine next _ fun x hx => ?_
      obtain ⟨e, he, hx⟩ := List.mem_flatMap.mp hx
      rcases List.mem_pair.mp hx with rfl | rfl
      · exact (ih e he).1
      · exact (ih e he).2
  | _ => exact next _ fun x hx => absurd hx List.not_mem_nil

/-- What a part consists of is written together. -/
theorem parts_sublist_of_mem (hp : p ∈ v.parts) : p.parts.Sublist v.parts := by
  induction v using components_induction with
  | next v ih =>
      rw [parts_eq v] at hp ⊢
      rcases List.mem_cons.mp hp with rfl | hp
      · rw [← parts_eq]
      · obtain ⟨x, hx, hp⟩ := List.mem_flatMap.mp hp
        exact ((ih x hx hp).trans (parts_sublist_flatMap hx)).cons v

/-- No value is a part of its components. -/
theorem notMem_parts_components : v ∉ v.components.flatMap parts := by
  intro h
  obtain ⟨x, hx, hv⟩ := List.mem_flatMap.mp h
  have hle := ((parts_sublist_of_mem hv).trans (parts_sublist_flatMap hx)).length_le
  rw [parts_eq v, List.length_cons] at hle
  omega

theorem MarksAgree.sublist {parts other : List Value} (h : MarksAgree parts)
    (hsub : other.Sublist parts) : MarksAgree other :=
  fun p hp q hq => h p (hsub.subset hp) q (hsub.subset hq)

theorem marksAgree_of_unmarked {parts : List Value} (h : ∀ p ∈ parts, p.mark = none) :
    MarksAgree parts := by
  intro p hp q _ n hn
  cases (h p hp).symm.trans hn

end Value

namespace Yaml

namespace Tree

open Value

variable {α β : Type} {marks : List Nat} {v : Value}

/-! ## The marks that come up -/

/-- The marks that came up once a step is done. -/
def marksAfter (making : Making α) (marks : List Nat) : Except Fault (List Nat) :=
  (making.run marks).map Prod.snd

theorem marksAfter_pure (x : α) (marks : List Nat) :
    marksAfter (pure x) marks = .ok marks := rfl

/-- Of two steps, the second goes on with the marks of the first. -/
theorem marksAfter_bind {making : Making α} {next : α → Making β}
    {after : List Nat → Except Fault (List Nat)}
    (hnext : ∀ x marks, marksAfter (next x) marks = after marks) :
    marksAfter (making >>= next) marks = marksAfter making marks >>= after := by
  rw [marksAfter, marksAfter, StateT.run_bind]
  cases making.run marks with
  | error f => rfl
  | ok outcome => exact hnext _ _

theorem marksAfter_bind_pure (making : Making α) (finish : α → β) :
    marksAfter (do return finish (← making)) marks = marksAfter making marks := by
  rw [marksAfter_bind fun x marks => marksAfter_pure (finish x) marks]
  cases marksAfter making marks <;> rfl

/-- The marks that came up once all values of a list are trees. -/
def marksAfterAll (items : List Value) (marks : List Nat) : Except Fault (List Nat) :=
  items.foldlM (fun marks x => marksAfter (make x) marks) marks

theorem marksAfter_makeAll (items : List Value) (marks : List Nat) :
    marksAfter (makeAll items) marks = marksAfterAll items marks := by
  induction items generalizing marks with
  | nil => rfl
  | cons x xs ih =>
      rw [makeAll, marksAfter_bind fun t marks => (marksAfter_bind_pure _ _).trans (ih marks),
        marksAfterAll, List.foldlM_cons]
      rfl

theorem marksAfter_makeKeys (items : List Value) (marks : List Nat) :
    marksAfter (makeKeys items) marks = marksAfterAll items marks := by
  induction items generalizing marks with
  | nil => rfl
  | cons x xs ih =>
      rw [makeKeys, marksAfter_bind fun t marks => (marksAfter_bind_pure _ _).trans (ih marks),
        marksAfterAll, List.foldlM_cons]
      rfl

theorem marksAfter_makeEntries (entries : Entries) (marks : List Nat) :
    marksAfter (makeEntries entries) marks =
      marksAfterAll (entries.flatMap fun e => [e.1, e.2]) marks := by
  induction entries generalizing marks with
  | nil => rfl
  | cons e es ih =>
      obtain ⟨k, x⟩ := e
      rw [makeEntries, marksAfter_bind fun t marks =>
        marksAfter_bind fun u marks => (marksAfter_bind_pure _ _).trans (ih marks)]
      rfl

/-- A part with a mark that came up before is left alone. -/
theorem marksAfter_once (mark : Mark) (making : Making Tree) (marks : List Nat) :
    marksAfter (once mark making) marks = match mark with
      | none => marksAfter making marks
      | some n => if n ∈ marks then .ok marks else marksAfter making (n :: marks) := by
  cases mark with
  | none => rfl
  | some n =>
      by_cases hn : n ∈ marks
      · simp only [if_pos hn]
        simp [once, marksAfter, hn]
        rfl
      · simp only [if_neg hn]
        simp [once, marksAfter, hn]

/-- One step for any kind of value: it is refused, or left alone, or its components are made. -/
theorem marksAfter_make (v : Value) (marks : List Nat) :
    marksAfter (make v) marks = match v.refusal? with
      | some f => .error f
      | none => match v.mark with
        | none => marksAfterAll v.components marks
        | some n =>
          if n ∈ marks then .ok marks else marksAfterAll v.components (n :: marks) := by
  cases v with
  | int n =>
      rw [make, refusal?]
      cases hshown : showInt n with
      | error f => rfl
      | ok t => rfl
  | list mark items =>
      rw [make, marksAfter_once]
      simp only [marksAfter_bind_pure, marksAfter_makeAll]
      rfl
  | tuple items =>
      rw [make, marksAfter_bind_pure, marksAfter_makeAll]
      rfl
  | set mark items =>
      rw [make, marksAfter_once]
      simp only [marksAfter_bind_pure, marksAfter_makeKeys]
      rfl
  | map mark entries =>
      rw [make, marksAfter_once]
      simp only [marksAfter_bind_pure, marksAfter_makeEntries]
      rfl
  | date mark d =>
      rw [make, marksAfter_once]
      rfl
  | timestamp mark t =>
      rw [make, marksAfter_once]
      rfl
  | _ => rfl

/-! ## The first part without a form -/

/-- Parts with one of some marks have a form, and so has everything in them. -/
def Settled (marks : List Nat) (parts : List Value) : Prop :=
  ∀ p ∈ parts, ∀ n ∈ marks, p.mark = some n → ∀ q ∈ p.parts, q.refusal? = none

/-- What comes of some parts where some marks came up before: the fault of the first part without a
form, or the marks from before and those of the parts. -/
structure Makes (outcome : Except Fault (List Nat)) (marks : List Nat) (parts : List Value) :
    Prop where
  fault : Fault.of? outcome = parts.findSome? refusal?
  marked : ∀ after, outcome = .ok after → ∀ n ∈ after, n ∈ marks ∨ ∃ p ∈ parts, p.mark = some n

theorem Makes.forall_refusal? {parts : List Value} {after : List Nat}
    (h : Makes (.ok after) marks parts) : ∀ p ∈ parts, p.refusal? = none :=
  List.findSome?_eq_none_iff.mp h.fault.symm

/-- The marks of some parts that were made settle what is made after them. -/
theorem Makes.settled {parts other : List Value} {after : List Nat}
    (h : Makes (.ok after) marks parts) (hagree : MarksAgree (parts ++ other))
    (hparts : ∀ p ∈ parts, p.parts ⊆ parts) (hother : Settled marks other) :
    Settled after other := by
  intro p hp n hn hmark q hq
  rcases h.marked after rfl n hn with hbefore | ⟨r, hr, hmark'⟩
  · exact hother p hp n hbefore hmark q hq
  · obtain rfl : p = r :=
      hagree p (List.mem_append_right _ hp) r (List.mem_append_left _ hr) n hmark hmark'
    exact h.forall_refusal? q (hparts p hr hq)

theorem makes_marksAfterAll {items : List Value}
    (ih : ∀ x ∈ items, ∀ marks, MarksAgree x.parts → Settled marks x.parts →
      Makes (marksAfter (make x) marks) marks x.parts)
    (hagree : MarksAgree (items.flatMap parts)) (hsettled : Settled marks (items.flatMap parts)) :
    Makes (marksAfterAll items marks) marks (items.flatMap parts) := by
  induction items generalizing marks with
  | nil => exact ⟨rfl, fun after h n hn => by cases h; exact .inl hn⟩
  | cons x xs ihitems =>
      rw [List.flatMap_cons] at hagree hsettled ⊢
      have hx := ih x List.mem_cons_self marks (hagree.sublist (List.sublist_append_left _ _))
        fun p hp => hsettled p (List.mem_append_left _ hp)
      rw [marksAfterAll, List.foldlM_cons]
      cases houtcome : marksAfter (make x) marks with
      | error f =>
          rw [houtcome] at hx
          refine ⟨?_, fun after h => by cases h⟩
          rw [List.findSome?_append, ← hx.fault]
          rfl
      | ok middle =>
          rw [houtcome] at hx
          have hrest := ihitems (fun y hy => ih y (List.mem_cons_of_mem _ hy))
            (hagree.sublist (List.sublist_append_right _ _))
            (hx.settled hagree (fun p hp => (parts_sublist_of_mem hp).subset)
              fun p hp => hsettled p (List.mem_append_right _ hp))
          refine ⟨?_, fun after h n hn => ?_⟩
          · rw [List.findSome?_append, ← hx.fault]
            exact hrest.fault
          · rcases hrest.marked after h n hn with hmiddle | ⟨p, hp, hmark⟩
            · rcases hx.marked middle rfl n hmiddle with hbefore | ⟨p, hp, hmark⟩
              · exact .inl hbefore
              · exact .inr ⟨p, List.mem_append_left _ hp, hmark⟩
            · exact .inr ⟨p, List.mem_append_right _ hp, hmark⟩

/-- What comes of the components of a value that is not refused comes of the value. -/
theorem Makes.around {outcome : Except Fault (List Nat)} {inner : List Nat}
    (h : Makes outcome inner (v.components.flatMap parts)) (hrefusal : v.refusal? = none)
    (hinner : ∀ n ∈ inner, n ∈ marks ∨ v.mark = some n) : Makes outcome marks v.parts := by
  rw [parts_eq]
  refine ⟨?_, fun after hafter n hn => ?_⟩
  · rw [List.findSome?_cons, hrefusal]
    exact h.fault
  · rcases h.marked after hafter n hn with hbefore | ⟨p, hp, hmark⟩
    · exact (hinner n hbefore).imp_right fun hmark => ⟨v, List.mem_cons_self, hmark⟩
    · exact .inr ⟨p, List.mem_cons_of_mem _ hp, hmark⟩

theorem makes_make (v : Value) (marks : List Nat) (hagree : MarksAgree v.parts)
    (hsettled : Settled marks v.parts) : Makes (marksAfter (make v) marks) marks v.parts := by
  induction v using components_induction generalizing marks with
  | next v ih =>
      have hbelow : (v.components.flatMap parts).Sublist v.parts := by
        rw [parts_eq v]
        exact List.sublist_cons_self _ _
      have hcomponents : Settled marks (v.components.flatMap parts) :=
        fun p hp => hsettled p (hbelow.subset hp)
      have hmade (inner : List Nat) (h : Settled inner (v.components.flatMap parts)) :
          Makes (marksAfterAll v.components inner) inner (v.components.flatMap parts) :=
        makes_marksAfterAll ih (hagree.sublist hbelow) h
      rw [marksAfter_make]
      cases hrefusal : v.refusal? with
      | some f =>
          refine ⟨?_, fun after h => by cases h⟩
          rw [parts_eq, List.findSome?_cons, hrefusal]
          rfl
      | none =>
          cases hmark : v.mark with
          | none => exact (hmade marks hcomponents).around hrefusal fun n hn => .inl hn
          | some n =>
              simp only
              split
              next hn =>
                refine ⟨(List.findSome?_eq_none_iff.mpr ?_).symm, fun after h n hn => ?_⟩
                · exact hsettled v v.self_mem_parts n hn hmark
                · cases h
                  exact .inl hn
              next hn =>
                refine (hmade (n :: marks) fun p hp m hm hpart => ?_).around hrefusal ?_
                · rcases List.mem_cons.mp hm with rfl | hm
                  · -- The mark is that of the value, which is no part of its components.
                    obtain rfl := hagree p (hbelow.subset hp) v v.self_mem_parts m hpart hmark
                    exact (notMem_parts_components hp).elim
                  · exact hcomponents p hp m hm hpart
                · intro m hm
                  rcases List.mem_cons.mp hm with rfl | hm
                  · exact .inr hmark
                  · exact .inl hm

/-- A value has a tree unless one of its parts is refused; the first such part has the fault. -/
theorem of?_ofValue (hagree : MarksAgree v.parts) :
    Fault.of? (ofValue v) = v.parts.findSome? refusal? := by
  have hmakes := makes_make v [] hagree fun p hp n hn => absurd hn List.not_mem_nil
  rw [← hmakes.fault, marksAfter, Fault.of?_map]
  exact Fault.of?_bind_pure _ _

theorem exists_ofValue_iff (hagree : MarksAgree v.parts) :
    (∃ t, ofValue v = .ok t) ↔ ∀ p ∈ v.parts, p.refusal? = none := by
  rw [← List.findSome?_eq_none_iff, ← of?_ofValue hagree]
  cases ofValue v <;> simp [Fault.of?]

end Tree

/-! ## Documents -/

/-- Writes documents one after the other, and nothing to close the stream. -/
def printDocuments : Bool → List Tree → Pen → Pen
  | _, [], p => p
  | first, t :: ts, p => printDocuments false ts (t.printDocument first p)

/-- The text of documents, without a mark that closes the stream. -/
def printed (trees : List Tree) : Text :=
  Text.ofChars (printDocuments true trees .start).out.reverse

/-- The mark of a stream that could go on; any other stream needs none. -/
def IsClosing (text : Text) : Prop := text = [] ∨ text = "...\n"

variable {values before after : List Value} {trees : List Tree} {v : Value} {f : Fault}

theorem Pen.isSpaced_indentTo_zero (p : Pen) : (p.indentTo 0).isSpaced = true := by
  simp only [Pen.indentTo, Nat.not_lt_zero, if_false]
  split
  next => rfl
  next hstay =>
    -- A line that is not broken ends in the first column, after a blank.
    cases hspaced : p.isSpaced with
    | true => rfl
    | false =>
        rcases Nat.eq_zero_or_pos p.column with hcolumn | hcolumn
        · simp [hspaced, hcolumn] at hstay
        · simp [hcolumn] at hstay

/-- After documents a pen stands where an indicator needs no blank before it. -/
theorem isSpaced_printDocuments (first : Bool) (trees : List Tree) {p : Pen}
    (hp : p.isSpaced = true) : (printDocuments first trees p).isSpaced = true := by
  induction trees generalizing first p with
  | nil => exact hp
  | cons t ts ih => exact ih false (Pen.isSpaced_indentTo_zero _)

theorem exists_out_close {p : Pen} (hp : p.isSpaced = true) :
    ∃ closing, IsClosing closing ∧
      Text.ofChars (Tree.close p).out.reverse = Text.ofChars p.out.reverse ++ closing := by
  rw [Tree.close]
  split
  next =>
    refine ⟨_, .inr rfl, ?_⟩
    simp [Pen.indicator, Pen.indentTo, Pen.put, Pen.lineBreak, hp, Text.ofChars]
    rfl
  next => exact ⟨[], .inl rfl, (List.append_nil _).symm⟩

/-- Values that have trees are written, and then what stands after them. -/
theorem writeFrom_append (h : before.mapM Tree.ofValue = .ok trees) (after : List Value)
    (first : Bool) (p : Pen) : writeFrom first (before ++ after) p =
      writeFrom (first && before.isEmpty) after (printDocuments first trees p) := by
  rw [Fault.mapM_eq_ok_iff] at h
  induction h generalizing first p with
  | nil => simp [printDocuments]
  | cons ht _ ih =>
      rw [List.cons_append, writeFrom, ht]
      simp only [ih, printDocuments]
      simp

/-- Values that all have trees are written in full. -/
theorem write_of_mapM_eq_ok (h : values.mapM Tree.ofValue = .ok trees) :
    ∃ closing, IsClosing closing ∧
      (write values).map Text.ofChars id = (printed trees ++ closing, none) := by
  obtain ⟨closing, hclosing, hout⟩ :=
    exists_out_close (isSpaced_printDocuments true trees (show Pen.start.isSpaced = true from rfl))
  refine ⟨closing, hclosing, ?_⟩
  have hwritten := writeFrom_append h [] true .start
  rw [List.append_nil] at hwritten
  rw [write, hwritten, printed, ← hout]
  rfl

/-- The stream breaks off before the first value that has no tree. -/
theorem write_of_fault (h : before.mapM Tree.ofValue = .ok trees) (hv : Tree.ofValue v = .error f)
    (after : List Value) :
    (write (before ++ v :: after)).map Text.ofChars id = (printed trees, some f) := by
  rw [write, writeFrom_append h, writeFrom, hv]
  rfl

end Yaml

end ManifestChain
