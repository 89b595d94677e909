import ManifestChain.Proofs.Calendar.Text
import ManifestChain.Proofs.Payload.NormalForm
import ManifestChain.Proofs.Value.Display
import ManifestChain.Proofs.Value.Parts

/-!
# Values shown before and after they are written

A value that is written as a document is read back with lists for its tuples, texts for its dates
and timestamps, and the entries of its mappings in ascending order of keys. Its text is the same
before and after exactly if nothing of that changed it; otherwise the two texts part.
-/

namespace ManifestChain

open Text (Agree AgreeAll Parts)

/-- Keys that are texts come in ascending order. -/
def Entries.Ascend (entries : Entries) : Prop :=
  (entries.map Prod.fst).Pairwise fun k l => ∀ s t, k = .text s → l = .text t → s.le t = true

namespace Value

/-- Reading back keeps the part as it is shown, if it keeps the parts inside it. -/
def Kept : Value → Prop
  | tuple _ => False
  | date _ _ => False
  | timestamp _ _ => False
  | map _ entries => Entries.Ascend entries
  | _ => True

/-- Reading a value back keeps every part of it as it is shown. -/
def ReadsAlike (v : Value) : Prop := ∀ part, v.Reaches part → part.Kept

/-- In every mapping inside a value the keys ascend. -/
def Ordered (v : Value) : Prop := ∀ mark entries, v.Reaches (map mark entries) →
  Entries.Ascend entries

/-- A relation between characters that tells the opening of a tuple from that of a list, and that of
a date from a quote, but no character from itself. -/
structure Tells (r : CodePoint → CodePoint → Prop) : Prop where
  irrefl : ∀ c, ¬r c c
  tuple : r '(' '['
  date : ∀ hasSingle hasDouble, r 'd' (Quoted.quoteFor hasSingle hasDouble)

theorem tells_ne : Tells (· ≠ ·) where
  irrefl _ h := h rfl
  tuple := by decide
  date hasSingle hasDouble := by
    rcases Quoted.quoteFor_cases hasSingle hasDouble with h | h <;> rw [h] <;> decide

theorem tells_lowerApart : Tells Text.LowerApart where
  irrefl := Text.not_lowerApart_self
  tuple := ⟨'(', '[', by decide, fun _ _ => rfl, fun _ _ => rfl⟩
  date hasSingle hasDouble := by
    rcases Quoted.quoteFor_cases hasSingle hasDouble with h | h <;> rw [h]
    · exact ⟨'d', '\'', by decide, fun _ _ => rfl, fun _ _ => rfl⟩
    · exact ⟨'d', '"', by decide, fun _ _ => rfl, fun _ _ => rfl⟩

/-- The quoted forms of different keys part. -/
def KeysPart (r : CodePoint → CodePoint → Prop) : Prop :=
  ∀ k l, k ≠ l → Parts r (Quoted.text k) (Quoted.text l)

variable {r : CodePoint → CodePoint → Prop} {p : Prop} {ss ts : List Text}

theorem agree_bracketed (hr : Tells r) (h : AgreeAll r p ss ts) (opening closing : Text) :
    Agree r p (bracketed opening closing ss) (bracketed opening closing ts) :=
  ((h.join hr.irrefl _).append_left opening).append_right closing

/-! ## Tuples, dates and timestamps -/

theorem parts_tupled (hr : Tells r) (ss ts : List Text) :
    Parts r (tupled ss) (bracketed "[" "]" ts) := by
  unfold tupled
  split
  · exact .of_head hr.tuple _ _
  · exact .of_head hr.tuple _ _

theorem parts_showDate (hr : Tells r) (d : Date) (t : Text) :
    Parts r (showDate d) (Quoted.text t) :=
  .of_head (hr.date _ _) _ _

theorem parts_showTimestamp (hr : Tells r) (m : Timestamp) (t : Text) :
    Parts r (showTimestamp m) (Quoted.text t) :=
  .of_head (hr.date _ _) _ _

/-! ## Lists and mappings -/

/-- The text of a value agrees with that of its document read back exactly if the value reads
alike. -/
def ShowsAlike (r : CodePoint → CodePoint → Prop) (v : Value) : Prop :=
  ∀ {form s t}, v.normal? = some form → form.Every Json.DistinctKeys → v.quoted = .ok s →
    form.sorted.toValue.quoted = .ok t → Agree r v.ReadsAlike s t

theorem agree_quotedItems {items : List Value} {forms : List Json}
    (ih : ∀ x ∈ items, x.ShowsAlike r) (hforms : normalItems? items = some forms)
    (hdistinct : ∀ form ∈ forms, form.Every Json.DistinctKeys) (hs : quotedItems items = .ok ss)
    (ht : quotedItems (forms.map fun form => form.sorted.toValue) = .ok ts) :
    AgreeAll r (∀ x ∈ items, x.ReadsAlike) ss ts := by
  replace hforms := normalItems?_eq_some_iff.mp hforms
  rw [quotedItems_eq_ok_iff] at hs ht
  induction hforms generalizing ss ts with
  | nil =>
      cases hs
      cases ht
      exact AgreeAll.nil.congr (by simp)
  | cons hx _ ihitems =>
      obtain _ | ⟨hs, hss⟩ := hs
      obtain _ | ⟨ht, hts⟩ := ht
      obtain ⟨hfirst, hrest⟩ := List.forall_mem_cons.mp hdistinct
      have hhead := ih _ List.mem_cons_self hx hfirst hs ht
      have htail := ihitems (fun x hx => ih x (List.mem_cons_of_mem _ hx)) hrest hss hts
      exact (AgreeAll.cons hhead htail).congr List.forall_mem_cons.symm

/-- The text of an entry and that of a member: the keys are told apart by their own texts. -/
theorem agree_entry (hr : Tells r) {k l : Text} {s t : Text}
    (hkeys : k = l ∨ Parts r (Quoted.text k) (Quoted.text l)) (hvalues : k = l → Agree r p s t) :
    Agree r (k = l ∧ p) (Quoted.text k ++ ": " ++ s) (Quoted.text l ++ ": " ++ t) := by
  rcases hkeys with rfl | hparts
  · exact ((hvalues rfl).append_left _).congr (and_iff_right rfl).symm
  · refine .of_parts hr.irrefl ((hparts.append_right ": " ": ").append_right s t) ?_
    rintro ⟨rfl, -⟩
    exact hparts.ne hr.irrefl rfl

/-- A member under the key of an entry is the sorted form of the entry's value. -/
def FormsOf (entries : Entries) (members : List (Text × Json)) : Prop :=
  ∀ e ∈ entries, ∀ m ∈ members, e.1 = text m.1 →
    ∃ form, e.2.normal? = some form ∧ form.Every Json.DistinctKeys ∧ m.2 = form.sorted

theorem agree_quotedEntries (hr : Tells r) {entries : Entries} {keys : List Text}
    {members : List (Text × Json)} (ih : ∀ e ∈ entries, e.2.ShowsAlike r)
    (htexts : entries.map Prod.fst = keys.map text) (hlength : keys.length = members.length)
    (hforms : FormsOf entries members)
    (hkeys : keys = members.map Prod.fst ∨ KeysPart r) (hs : quotedEntries entries = .ok ss)
    (ht : quotedEntries (Json.toEntries members) = .ok ts) :
    AgreeAll r (keys = members.map Prod.fst ∧ ∀ e ∈ entries, e.2.ReadsAlike) ss ts := by
  rw [quotedEntries_eq_ok_iff] at hs ht
  rw [toEntries_eq_map] at ht
  induction entries generalizing keys members ss ts with
  | nil =>
      obtain rfl := List.map_eq_nil_iff.mp htexts.symm
      obtain rfl := List.length_eq_zero_iff.mp hlength.symm
      cases hs
      cases ht
      exact AgreeAll.nil.congr (by simp)
  | cons e es ihentries =>
      obtain _ | ⟨k, ks⟩ := keys
      · cases htexts
      obtain _ | ⟨m, ms⟩ := members
      · cases hlength
      obtain ⟨hkey, htexts⟩ := List.cons.inj htexts
      obtain _ | ⟨⟨kt, vt, hkt, hvt, rfl⟩, hss⟩ := hs
      obtain _ | ⟨⟨lt, wt, hlt, hwt, rfl⟩, hts⟩ := ht
      rw [hkey] at hkt
      cases hkt
      cases hlt
      -- Keys are distinct, so under the same key stands the same value; other keys part.
      have hvalues : k = m.1 → Agree r e.2.ReadsAlike vt wt := by
        rintro rfl
        obtain ⟨form, hform, hdistinct, heq⟩ :=
          hforms e List.mem_cons_self m List.mem_cons_self hkey
        simp only [heq] at hwt
        exact ih e List.mem_cons_self hform hdistinct hvt hwt
      have hfirst : k = m.1 ∨ Parts r (Quoted.text k) (Quoted.text m.1) := by
        rcases hkeys with heq | hparts
        · exact .inl (List.cons.inj heq).1
        · exact (eq_or_ne k m.1).imp_right (hparts k m.1)
      have hrest := ihentries (fun e he => ih e (List.mem_cons_of_mem _ he)) htexts
        (Nat.succ.inj hlength)
        (fun e he m hm => hforms e (List.mem_cons_of_mem _ he) m (List.mem_cons_of_mem _ hm))
        (hkeys.imp_left fun heq => (List.cons.inj heq).2) hss hts
      refine (AgreeAll.cons (agree_entry hr hfirst hvalues) hrest).congr ?_
      simp [and_assoc, and_left_comm]

/-! ## Mappings and their sorted members -/

theorem ascend_iff {entries : Entries} {keys : List Text}
    (h : entries.map Prod.fst = keys.map text) :
    Entries.Ascend entries ↔ keys.Pairwise fun k l => k.le l = true := by
  rw [Entries.Ascend, h, List.pairwise_map]
  simp

/-- Sorting leaves the keys as they are exactly if they ascend. -/
theorem eq_keys_sortMembers_iff (members : List (Text × Json)) :
    members.map Prod.fst = (Json.sortMembers members).map Prod.fst ↔
      (members.map Prod.fst).Pairwise fun k l => k.le l = true := by
  have hsorted : ((Json.sortMembers members).map Prod.fst).Pairwise fun k l => k.le l = true :=
    List.pairwise_map.mpr (Json.sortMembers_pairwise members)
  constructor
  · exact fun h => h ▸ hsorted
  · intro h
    exact List.Perm.eq_of_pairwise (fun k l _ _ => Text.le_antisymm) h hsorted
      ((Json.sortMembers_perm members).map Prod.fst).symm

theorem formsOf_sortMembers {entries : Entries} {members : List (Text × Json)}
    (hmembers : normalMembers? entries = some members)
    (hdistinct : (Json.object members).Every Json.DistinctKeys) :
    FormsOf entries (Json.sortMembers (members.map (Prod.map id Json.sorted))) := by
  obtain ⟨hkeys, hparts⟩ := Json.every_object_iff.mp hdistinct
  intro e he m hm hkey
  obtain ⟨n, hn, rfl⟩ := List.mem_map.mp ((Json.sortMembers_perm _).mem_iff.mp hm)
  obtain ⟨n', hn', hkey', hform⟩ :=
    Json.exists_mem_of_forall₂ (normalMembers?_eq_some_iff.mp hmembers) he
  have hsame : n'.1 = n.1 := text.inj (hkey'.symm.trans hkey)
  obtain rfl := Json.eq_of_mem_of_nodup hkeys hn' hn hsame
  exact ⟨n'.2, hform, hparts n' hn', rfl⟩

/-! ## Values -/

theorem readsAlike_list_iff {mark : Mark} {items : List Value} :
    (list mark items).ReadsAlike ↔ ∀ x ∈ items, x.ReadsAlike :=
  forall_reaches_list_iff.trans (and_iff_right trivial)

theorem readsAlike_map_iff {mark : Mark} {entries : Entries} :
    (map mark entries).ReadsAlike ↔
      Entries.Ascend entries ∧ ∀ e ∈ entries, e.2.ReadsAlike :=
  forall_reaches_map_iff

theorem readsAlike_text (t : Text) : (text t).ReadsAlike :=
  (forall_reaches_iff_of_leaf fun _ h => by cases h; rfl).mpr trivial

/-- A value that is changed itself does not read alike. -/
theorem not_readsAlike {v : Value} (h : ¬v.Kept) : ¬v.ReadsAlike := fun hv => h (hv v (.self v))

theorem showsAlike_list (hr : Tells r) (mark : Mark) {items : List Value}
    (ih : ∀ x ∈ items, x.ShowsAlike r) : (list mark items).ShowsAlike r := by
  intro form s t hform hdistinct hs ht
  obtain ⟨forms, hforms, rfl⟩ := Option.map_eq_some_iff.mp hform
  rw [Json.sorted_array, Json.toValue, toValues_eq_map, List.map_map] at ht
  obtain ⟨ss, hss, heq⟩ := Fault.bind_eq_ok_iff.mp hs
  obtain ⟨ts, hts, heq'⟩ := Fault.bind_eq_ok_iff.mp ht
  cases heq
  cases heq'
  have hall := agree_quotedItems ih hforms (Json.every_array_iff.mp hdistinct).2 hss hts
  exact (agree_bracketed hr hall "[" "]").congr readsAlike_list_iff.symm

/-- Where a tuple stood, a list is read back. -/
theorem showsAlike_tuple (hr : Tells r) (items : List Value) : (tuple items).ShowsAlike r := by
  intro form s t hform _ hs ht
  obtain ⟨forms, hforms, rfl⟩ := Option.map_eq_some_iff.mp hform
  rw [Json.sorted_array, Json.toValue] at ht
  obtain ⟨ss, -, heq⟩ := Fault.bind_eq_ok_iff.mp hs
  obtain ⟨ts, -, heq'⟩ := Fault.bind_eq_ok_iff.mp ht
  cases heq
  cases heq'
  exact .of_parts hr.irrefl (parts_tupled hr ss ts) (not_readsAlike id)

theorem showsAlike_map (hr : Tells r) (mark : Mark) {entries : Entries}
    (ih : ∀ e ∈ entries, e.2.ShowsAlike r) (hkeys : Entries.Ascend entries ∨ KeysPart r) :
    (map mark entries).ShowsAlike r := by
  intro form s t hform hdistinct hs ht
  obtain ⟨members, hmembers, rfl⟩ := Option.map_eq_some_iff.mp hform
  rw [Json.sorted_object, Json.toValue] at ht
  obtain ⟨ss, hss, heq⟩ := Fault.bind_eq_ok_iff.mp hs
  obtain ⟨ts, hts, heq'⟩ := Fault.bind_eq_ok_iff.mp ht
  cases heq
  cases heq'
  have htexts := map_fst_of_normalMembers? hmembers
  have hascend := eq_keys_sortMembers_iff (members.map (Prod.map id Json.sorted))
  rw [Json.map_fst_map, ← ascend_iff htexts] at hascend
  have hlength : (members.map Prod.fst).length =
      (Json.sortMembers (members.map (Prod.map id Json.sorted))).length := by
    simp [(Json.sortMembers_perm _).length_eq]
  have hall := agree_quotedEntries hr ih htexts hlength (formsOf_sortMembers hmembers hdistinct)
    (hkeys.imp_left hascend.mpr) hss hts
  refine (agree_bracketed hr hall "\x7b" "\x7d").congr ?_
  rw [hascend, readsAlike_map_iff]

/-- The text of a value that is written and that of its document read back are equal exactly if the
value reads alike, and otherwise part, if different keys do. -/
theorem showsAlike (hr : Tells r) {v : Value} (hkeys : v.Ordered ∨ KeysPart r) :
    v.ShowsAlike r := by
  induction v with
  | list mark items ih =>
      exact showsAlike_list hr mark fun x hx => ih x hx <|
        hkeys.imp_left fun h mark' entries hpart => h mark' entries (.listItem hx hpart)
  | tuple items => exact showsAlike_tuple hr items
  | map mark entries ih =>
      refine showsAlike_map hr mark (fun e he => (ih e he).2 <| ?_)
        (hkeys.imp_left fun h => h mark entries (.self _))
      exact hkeys.imp_left fun h mark' entries' hpart => h mark' entries' (.entryValue he hpart)
  | date mark d =>
      intro form s t hform _ hs ht
      cases hform
      cases hs
      cases ht
      exact .of_parts hr.irrefl (parts_showDate hr d _) (not_readsAlike id)
  | timestamp mark m =>
      intro form s t hform _ hs ht
      obtain ⟨written, -, rfl⟩ := Option.map_eq_some_iff.mp hform
      cases hs
      cases ht
      exact .of_parts hr.irrefl (parts_showTimestamp hr m _) (not_readsAlike id)
  | set | bytes | view | foreign | rendering | template | application | deploymentChild
    | serviceChild | otherChild | translator | constant =>
      intro form s t hform
      cases hform
  | _ =>
      intro form s t hform _ hs ht
      cases hform
      refine .of_eq (Except.ok.inj (hs.symm.trans ht)) ?_
      exact (forall_reaches_iff_of_leaf fun _ h => by cases h; rfl).mpr trivial

/-! ## Values in running text -/

/-- A value in running text reads back as it was shown: a date does so as well. -/
def ShownAlike (v : Value) : Prop := (∃ mark d, v = date mark d) ∨ v.ReadsAlike

theorem shown_iff (hr : Tells r) {f : Text → Text}
    (hf : ∀ {p s t}, Agree r p s t → (f s = f t ↔ p))
    (hmoment : ∀ {m : Timestamp} {written}, m.rfc3339? = some written → f (m.text " ") ≠ f written)
    {v : Value} {form : Json} {s t : Text} (hform : v.normal? = some form)
    (hdistinct : form.Every Json.DistinctKeys)
    (hkeys : v.Ordered ∨ KeysPart r) (hs : v.shown = .ok s)
    (ht : form.sorted.toValue.shown = .ok t) : f s = f t ↔ v.ShownAlike := by
  have hquoted (hs : v.quoted = .ok s) (ht : form.sorted.toValue.quoted = .ok t)
      (hdate : ¬∃ mark d, v = date mark d) : f s = f t ↔ v.ShownAlike :=
    (hf (showsAlike hr hkeys hform hdistinct hs ht)).trans (or_iff_right hdate).symm
  cases v with
  | text u =>
      cases hform
      cases hs
      cases ht
      exact iff_of_true rfl (.inr (readsAlike_text _))
  | date mark d =>
      cases hform
      cases hs
      cases ht
      exact iff_of_true rfl (.inl ⟨mark, d, rfl⟩)
  | timestamp mark m =>
      obtain ⟨written, hwritten, rfl⟩ := Option.map_eq_some_iff.mp hform
      cases hs
      cases ht
      refine iff_of_false (hmoment hwritten) ?_
      rintro (⟨mark', d, heq⟩ | halike)
      · cases heq
      · exact not_readsAlike id halike
  | list mark items =>
      obtain ⟨forms, -, rfl⟩ := Option.map_eq_some_iff.mp hform
      exact hquoted hs ht (by rintro ⟨_, _, ⟨⟩⟩)
  | tuple items =>
      obtain ⟨forms, -, rfl⟩ := Option.map_eq_some_iff.mp hform
      exact hquoted hs ht (by rintro ⟨_, _, ⟨⟩⟩)
  | map mark entries =>
      obtain ⟨members, -, rfl⟩ := Option.map_eq_some_iff.mp hform
      exact hquoted hs ht (by rintro ⟨_, _, ⟨⟩⟩)
  | set | bytes | view | foreign | rendering | templateRecord | application | deploymentChild
    | serviceChild | otherChild | translator | constant => cases hform
  | _ =>
      cases hform
      exact hquoted hs ht (by rintro ⟨_, _, ⟨⟩⟩)

/-- A value that is written is shown in running text as its document read back is, exactly if it
reads alike or is a date. -/
theorem shown_eq_iff {v : Value} {form : Json} {s t : Text} (hform : v.normal? = some form)
    (hdistinct : form.Every Json.DistinctKeys) (hs : v.shown = .ok s)
    (ht : form.sorted.toValue.shown = .ok t) : s = t ↔ v.ShownAlike :=
  shown_iff (f := id) tells_ne Agree.eq_iff
    (fun h heq => Timestamp.lower_text_ne_rfc3339? h (congrArg Text.lower heq)) hform hdistinct
    (.inr fun _ _ => Quoted.parts_text) hs ht

/-- If the keys inside it ascend, the same is true of the texts in lower case. -/
theorem lower_shown_eq_iff {v : Value} {form : Json} {s t : Text} (hform : v.normal? = some form)
    (hdistinct : form.Every Json.DistinctKeys) (hordered : v.Ordered) (hs : v.shown = .ok s)
    (ht : form.sorted.toValue.shown = .ok t) : s.lower = t.lower ↔ v.ShownAlike :=
  shown_iff tells_lowerApart Text.Agree.lower_eq_iff Timestamp.lower_text_ne_rfc3339? hform
    hdistinct (.inl hordered) hs ht

/-- What is read back counts as true exactly if the value does that was written. -/
theorem isTruthy_toValue_sorted {v : Value} {form : Json} (h : v.normal? = some form) :
    form.sorted.toValue.isTruthy = v.isTruthy := by
  have harray {items : List Value} {forms : List Json} (hforms : normalItems? items = some forms) :
      (Json.array forms).sorted.toValue.isTruthy = !items.isEmpty := by
    cases normalItems?_eq_some_iff.mp hforms <;> rfl
  have hdate (d : Date) : d.text ≠ [] := fun hnil => by
    have hlength := d.length_text
    rw [hnil] at hlength
    cases hlength
  cases v with
  | list mark items =>
      obtain ⟨forms, hforms, rfl⟩ := Option.map_eq_some_iff.mp h
      exact harray hforms
  | tuple items =>
      obtain ⟨forms, hforms, rfl⟩ := Option.map_eq_some_iff.mp h
      exact harray hforms
  | map mark entries =>
      obtain ⟨members, hmembers, rfl⟩ := Option.map_eq_some_iff.mp h
      have hempty := (Json.sortMembers_perm (members.map (Prod.map id Json.sorted))).isEmpty_eq
      rw [Json.sorted_object, Json.toValue, toEntries_eq_map, ofEntries, isTruthy, isTruthy,
        List.isEmpty_map, hempty]
      cases normalMembers?_eq_some_iff.mp hmembers <;> rfl
  | date mark d =>
      cases h
      simp [Json.sorted, Json.toValue, isTruthy, hdate]
  | timestamp mark m =>
      obtain ⟨written, hwritten, rfl⟩ := Option.map_eq_some_iff.mp h
      obtain ⟨⟨d, c⟩, -, rfl⟩ := Option.map_eq_some_iff.mp hwritten
      simp [Json.sorted, Json.toValue, isTruthy, hdate]
  | set | bytes | view | foreign | rendering | templateRecord | application | deploymentChild
    | serviceChild | otherChild | translator | constant => cases h
  | _ =>
      cases h
      rfl

end Value

end ManifestChain
