import Mathlib.Data.List.Forall2
import ManifestChain.Proofs.Value.WellFormed
import ManifestChain.Value.Access

/-!
# Values up to the order of entries

Two values are the same up to the order of the entries of mappings if one results from the other by
reordering entries at any depth. What such values have at a text or at an index are again such
values, where no mapping has two equal keys.
-/

namespace ManifestChain

namespace Value

/-- The values differ at most in the order of the entries of mappings at any depth, in that of the
items of sets, and in the marks. -/
inductive Reordered : Value → Value → Prop
  | same (v : Value) : Reordered v v
  | list (m n : Mark) {xs ys : List Value} (items : List.Forall₂ Reordered xs ys) :
      Reordered (list m xs) (list n ys)
  | tuple {xs ys : List Value} (items : List.Forall₂ Reordered xs ys) :
      Reordered (tuple xs) (tuple ys)
  | set (m n : Mark) {xs ys ordered : List Value} (order : ordered.Perm ys)
      (items : List.Forall₂ Reordered xs ordered) : Reordered (set m xs) (set n ys)
  /-- The entries are those of the second mapping in some order. -/
  | map (m n : Mark) {es fs ordered : Entries} (order : ordered.Perm fs)
      (keys : List.Forall₂ Reordered (es.map Prod.fst) (ordered.map Prod.fst))
      (values : List.Forall₂ Reordered (es.map Prod.snd) (ordered.map Prod.snd)) :
      Reordered (map m es) (map n fs)
  | view {es fs ordered : Entries} (order : ordered.Perm fs)
      (keys : List.Forall₂ Reordered (es.map Prod.fst) (ordered.map Prod.fst))
      (values : List.Forall₂ Reordered (es.map Prod.snd) (ordered.map Prod.snd)) :
      Reordered (view es) (view fs)
  | date (m n : Mark) (d : Date) : Reordered (date m d) (date n d)
  | timestamp (m n : Mark) (t : Timestamp) : Reordered (timestamp m t) (timestamp n t)

end Value

/-- Entries that are those of another mapping in some order, up to the order inside them. -/
def Entries.Reordered (es fs : Entries) : Prop :=
  ∃ ordered : Entries, ordered.Perm fs ∧
    List.Forall₂ (fun e f => e.1.Reordered f.1 ∧ e.2.Reordered f.2) es ordered

theorem Entries.Reordered.refl (es : Entries) : es.Reordered es :=
  ⟨es, .refl es, List.forall₂_same.mpr fun e _ => ⟨.same e.1, .same e.2⟩⟩

namespace Value

theorem forall₂_reordered_refl (xs : List Value) : List.Forall₂ Reordered xs xs :=
  List.forall₂_same.mpr fun x _ => .same x

/-- Entries are related part by part if their keys and their values are. -/
theorem forall₂_entries_iff {es fs : Entries} :
    List.Forall₂ Reordered (es.map Prod.fst) (fs.map Prod.fst) ∧
        List.Forall₂ Reordered (es.map Prod.snd) (fs.map Prod.snd) ↔
      List.Forall₂ (fun e f => e.1.Reordered f.1 ∧ e.2.Reordered f.2) es fs := by
  simp only [List.forall₂_map_left_iff, List.forall₂_map_right_iff]
  constructor
  · rintro ⟨hkeys, hvalues⟩
    induction hkeys with
    | nil => exact .nil
    | cons hkey _ ih =>
        cases hvalues with
        | cons hvalue hvalues => exact .cons ⟨hkey, hvalue⟩ (ih hvalues)
  · exact fun h => ⟨h.imp fun _ _ he => he.1, h.imp fun _ _ he => he.2⟩

/-! ## Values that are reordered, by their kind -/

section Kinds

variable {mark : Mark} {xs : List Value} {es : Entries} {w : Value}

theorem reordered_list_iff :
    (list mark xs).Reordered w ↔ ∃ n ys, w = list n ys ∧ List.Forall₂ Reordered xs ys := by
  constructor
  · intro h
    cases h with
    | same => exact ⟨mark, xs, rfl, forall₂_reordered_refl xs⟩
    | list _ n items => exact ⟨n, _, rfl, items⟩
  · rintro ⟨n, ys, rfl, items⟩
    exact .list mark n items

theorem reordered_tuple_iff :
    (tuple xs).Reordered w ↔ ∃ ys, w = tuple ys ∧ List.Forall₂ Reordered xs ys := by
  constructor
  · intro h
    cases h with
    | same => exact ⟨xs, rfl, forall₂_reordered_refl xs⟩
    | tuple items => exact ⟨_, rfl, items⟩
  · rintro ⟨ys, rfl, items⟩
    exact .tuple items

theorem reordered_set_iff : (set mark xs).Reordered w ↔
    ∃ n ys ordered, w = set n ys ∧ ordered.Perm ys ∧ List.Forall₂ Reordered xs ordered := by
  constructor
  · intro h
    cases h with
    | same => exact ⟨mark, xs, xs, rfl, .refl xs, forall₂_reordered_refl xs⟩
    | set _ n order items => exact ⟨n, _, _, rfl, order, items⟩
  · rintro ⟨n, ys, ordered, rfl, order, items⟩
    exact .set mark n order items

theorem reordered_map_iff :
    (map mark es).Reordered w ↔ ∃ n fs, w = map n fs ∧ es.Reordered fs := by
  constructor
  · intro h
    cases h with
    | same => exact ⟨mark, es, rfl, .refl es⟩
    | map _ n order keys values =>
        exact ⟨n, _, rfl, _, order, forall₂_entries_iff.mp ⟨keys, values⟩⟩
  · rintro ⟨n, fs, rfl, ordered, order, entries⟩
    obtain ⟨keys, values⟩ := forall₂_entries_iff.mpr entries
    exact .map mark n order keys values

theorem reordered_view_iff :
    (view es).Reordered w ↔ ∃ fs, w = view fs ∧ es.Reordered fs := by
  constructor
  · intro h
    cases h with
    | same => exact ⟨es, rfl, .refl es⟩
    | view order keys values => exact ⟨_, rfl, _, order, forall₂_entries_iff.mp ⟨keys, values⟩⟩
  · rintro ⟨fs, rfl, ordered, order, entries⟩
    obtain ⟨keys, values⟩ := forall₂_entries_iff.mpr entries
    exact .view order keys values

end Kinds

/-- Only a text is the same as that text. -/
theorem reordered_text_right_iff {v : Value} {t : Text} : v.Reordered (text t) ↔ v = text t := by
  constructor
  · intro h
    cases h
    rfl
  · rintro rfl
    exact .same _

theorem reordered_text_left_iff {t : Text} {w : Value} : (text t).Reordered w ↔ w = text t := by
  constructor
  · intro h
    cases h
    rfl
  · rintro rfl
    exact .same _

theorem forall₂_trans_of_mem {α β γ : Type} {r : α → β → Prop} {s : β → γ → Prop}
    {t : α → γ → Prop} {xs : List α} {ys : List β} {zs : List γ} (hxs : List.Forall₂ r xs ys)
    (hys : List.Forall₂ s ys zs) (h : ∀ x ∈ xs, ∀ y z, r x y → s y z → t x z) :
    List.Forall₂ t xs zs := by
  induction hxs generalizing zs with
  | nil => cases hys; exact .nil
  | cons hx _ ih =>
      cases hys with
      | cons hy hys =>
          exact .cons (h _ List.mem_cons_self _ _ hx hy)
            (ih hys fun x hx => h x (List.mem_cons_of_mem _ hx))

theorem entriesReordered_trans {es fs gs : Entries} (h : es.Reordered fs) (h' : fs.Reordered gs)
    (ih : ∀ e ∈ es, (∀ {v w}, e.1.Reordered v → v.Reordered w → e.1.Reordered w) ∧
      ∀ {v w}, e.2.Reordered v → v.Reordered w → e.2.Reordered w) : es.Reordered gs := by
  obtain ⟨first, hfirst, hes⟩ := h
  obtain ⟨second, hsecond, hfs⟩ := h'
  -- The first order is carried over to the entries of the third mapping.
  obtain ⟨both, hboth, hperm⟩ := List.perm_comp_forall₂ hfirst hfs
  refine ⟨both, hperm.trans hsecond, forall₂_trans_of_mem hes hboth fun e he f g hef hfg => ?_⟩
  exact ⟨(ih e he).1 hef.1 hfg.1, (ih e he).2 hef.2 hfg.2⟩

theorem Reordered.trans {u v w : Value} (h : u.Reordered v) (h' : v.Reordered w) :
    u.Reordered w := by
  induction u generalizing v w with
  | list mark xs ih =>
      obtain ⟨n, ys, rfl, hxs⟩ := reordered_list_iff.mp h
      obtain ⟨n', zs, rfl, hys⟩ := reordered_list_iff.mp h'
      exact .list mark n' (forall₂_trans_of_mem hxs hys fun x hx y z => ih x hx)
  | tuple xs ih =>
      obtain ⟨ys, rfl, hxs⟩ := reordered_tuple_iff.mp h
      obtain ⟨zs, rfl, hys⟩ := reordered_tuple_iff.mp h'
      exact .tuple (forall₂_trans_of_mem hxs hys fun x hx y z => ih x hx)
  | set mark xs ih =>
      obtain ⟨n, ys, first, rfl, hfirst, hxs⟩ := reordered_set_iff.mp h
      obtain ⟨n', zs, second, rfl, hsecond, hys⟩ := reordered_set_iff.mp h'
      obtain ⟨both, hboth, hperm⟩ := List.perm_comp_forall₂ hfirst hys
      exact .set mark n' (hperm.trans hsecond)
        (forall₂_trans_of_mem hxs hboth fun x hx y z => ih x hx)
  | map mark es ih =>
      obtain ⟨n, fs, rfl, hes⟩ := reordered_map_iff.mp h
      obtain ⟨n', gs, rfl, hfs⟩ := reordered_map_iff.mp h'
      exact reordered_map_iff.mpr ⟨n', gs, rfl, entriesReordered_trans hes hfs ih⟩
  | view es ih =>
      obtain ⟨fs, rfl, hes⟩ := reordered_view_iff.mp h
      obtain ⟨gs, rfl, hfs⟩ := reordered_view_iff.mp h'
      exact reordered_view_iff.mpr ⟨gs, rfl, entriesReordered_trans hes hfs ih⟩
  | date mark d =>
      cases h with
      | same => exact h'
      | date _ n => cases h' with
        | same => exact .date mark n d
        | date _ n' => exact .date mark n' d
  | timestamp mark t =>
      cases h with
      | same => exact h'
      | timestamp _ n => cases h' with
        | same => exact .timestamp mark n t
        | timestamp _ n' => exact .timestamp mark n' t
  | _ =>
      cases h
      exact h'

/-! ## Parts of values that are the same -/

/-- Well-formed values that are the same up to the order of entries. -/
structure Matches (v w : Value) : Prop where
  reordered : v.Reordered w
  left : v.WellFormed
  right : w.WellFormed

theorem Matches.refl {v : Value} (h : v.WellFormed) : v.Matches v := ⟨.same v, h, h⟩

theorem Matches.trans {u v w : Value} (h : u.Matches v) (h' : v.Matches w) : u.Matches w :=
  ⟨h.reordered.trans h'.reordered, h.left, h'.right⟩

theorem forall₂_matches {xs ys : List Value} (h : List.Forall₂ Reordered xs ys)
    (hxs : ∀ x ∈ xs, x.WellFormed) (hys : ∀ y ∈ ys, y.WellFormed) :
    List.Forall₂ Matches xs ys := by
  induction h with
  | nil => exact .nil
  | cons hxy _ ih =>
      obtain ⟨hx, hxs⟩ := List.forall_mem_cons.mp hxs
      obtain ⟨hy, hys⟩ := List.forall_mem_cons.mp hys
      exact .cons ⟨hxy, hx, hy⟩ (ih hxs hys)

theorem matches_list_iff {mark : Mark} {xs : List Value} {w : Value} :
    (list mark xs).Matches w ↔ ∃ n ys, w = list n ys ∧ List.Forall₂ Matches xs ys := by
  constructor
  · rintro ⟨hreordered, hleft, hright⟩
    obtain ⟨n, ys, rfl, items⟩ := reordered_list_iff.mp hreordered
    exact ⟨n, ys, rfl,
      forall₂_matches items (allWellFormed_iff.mp hleft) (allWellFormed_iff.mp hright)⟩
  · rintro ⟨n, ys, rfl, items⟩
    have hright := Json.forall_of_forall₂ (p := WellFormed) items fun _ _ _ hxy => hxy.right
    have hleft := Json.forall_of_forall₂ (p := WellFormed) items.flip fun _ _ _ hxy => hxy.left
    exact ⟨.list mark n (items.imp fun _ _ hxy => hxy.reordered), allWellFormed_iff.mpr hleft,
      allWellFormed_iff.mpr hright⟩

theorem exists_of_rel {α β : Type} {r : α → β → Prop} {x : Option α} {y : Option β}
    (h : Option.Rel r x y) {a : α} (hx : x = some a) : ∃ b, y = some b ∧ r a b := by
  cases h with
  | none => cases hx
  | some hab =>
      cases hx
      exact ⟨_, rfl, hab⟩

/-- Mappings that match, whether they can be written to or not, have entries that do. -/
theorem Matches.entries? {v w : Value} (h : v.Matches w) :
    Option.Rel (fun es fs => (ofEntries es).Matches (ofEntries fs)) v.entries? w.entries? := by
  obtain ⟨hreordered, hleft, hright⟩ := h
  cases v with
  | map mark es =>
      obtain ⟨n, fs, rfl, hes⟩ := reordered_map_iff.mp hreordered
      exact .some ⟨reordered_map_iff.mpr ⟨none, fs, rfl, hes⟩, hleft, hright⟩
  | view es =>
      obtain ⟨fs, rfl, hes⟩ := reordered_view_iff.mp hreordered
      exact .some ⟨reordered_map_iff.mpr ⟨none, fs, rfl, hes⟩, hleft, hright⟩
  | _ => cases hreordered <;> exact .none

theorem mem_of_get? {es : Entries} {key : Text} {v : Value} (h : es.get? key = some v) :
    (text key, v) ∈ es := by
  induction es with
  | nil => cases h
  | cons e es ih =>
      obtain ⟨k, u⟩ := e
      cases k with
      | text k =>
          rw [Entries.get?] at h
          split at h
          next heq =>
            cases h
            rw [heq]
            exact List.mem_cons_self
          next => exact List.mem_cons_of_mem _ (ih h)
      | _ => exact List.mem_cons_of_mem _ (ih h)

/-- What is found at a text is the entry that has it as its key. -/
theorem get?_eq_some_iff {es : Entries} (h : Distinct (es.map Prod.fst)) {key : Text} {v : Value} :
    es.get? key = some v ↔ (text key, v) ∈ es := by
  refine ⟨mem_of_get?, fun hmem => ?_⟩
  induction es with
  | nil => cases hmem
  | cons e es ih =>
      obtain ⟨hhead, htail⟩ := List.pairwise_cons.mp h
      rcases List.mem_cons.mp hmem with rfl | hlater
      · rw [Entries.get?, if_pos rfl]
      · -- The key comes later, so it is not the one in front.
        have hne := hhead _ (List.mem_map_of_mem hlater)
        obtain ⟨k, u⟩ := e
        cases k with
        | text k =>
            rw [equal_text, beq_eq_false_iff_ne] at hne
            rw [Entries.get?, if_neg hne]
            exact ih htail hlater
        | _ => exact ih htail hlater

/-- Mappings that match have matching values at a text, or none. -/
theorem Matches.get? {es fs : Entries} (h : (ofEntries es).Matches (ofEntries fs)) (key : Text) :
    Option.Rel Matches (es.get? key) (fs.get? key) := by
  obtain ⟨hreordered, ⟨hes, hesparts⟩, ⟨hfs, hfsparts⟩⟩ := h
  obtain ⟨_, _, heq, ordered, order, entries⟩ := reordered_map_iff.mp hreordered
  cases heq
  cases hv : es.get? key with
  | none =>
      cases hw : fs.get? key with
      | none => exact .none
      | some w =>
          have hmem := order.mem_iff.mpr ((get?_eq_some_iff hfs).mp hw)
          obtain ⟨⟨k, v⟩, he, hkey, -⟩ := Json.exists_mem_of_forall₂ entries.flip hmem
          obtain rfl := reordered_text_right_iff.mp hkey
          rw [(get?_eq_some_iff hes).mpr he] at hv
          cases hv
  | some v =>
      have hmem := (get?_eq_some_iff hes).mp hv
      obtain ⟨⟨k, w⟩, hf, hkey, hvalue⟩ := Json.exists_mem_of_forall₂ entries hmem
      obtain rfl := reordered_text_left_iff.mp hkey
      have hfound := order.mem_iff.mp hf
      rw [(get?_eq_some_iff hfs).mpr hfound]
      exact .some ⟨hvalue, (entriesWellFormed_iff.mp hesparts _ hmem).2,
        (entriesWellFormed_iff.mp hfsparts _ hfound).2⟩

theorem Matches.field {es fs : Entries} (h : (ofEntries es).Matches (ofEntries fs)) (key : Text) :
    (field es key).Matches (field fs key) := by
  have hget := h.get? key
  rw [Value.field, Value.field]
  generalize es.get? key = found at hget ⊢
  generalize fs.get? key = found' at hget ⊢
  cases hget with
  | none => exact .refl trivial
  | some hvalue => exact hvalue

theorem valueAt?_text (es : Entries) (key : Text) : es.valueAt? (text key) = es.get? key := by
  induction es with
  | nil => rfl
  | cons e es ih =>
      obtain ⟨k, v⟩ := e
      cases k with
      | text k => simp [Entries.valueAt?, Entries.get?, equal_text, ih]
      | _ => simpa [Entries.valueAt?, Entries.get?, equal, equalsInt, equalsFloat] using ih

theorem partAt_text_eq_ok_iff {v part : Value} {key : Text} :
    v.partAt (text key) = .ok part ↔ ∃ es, v.entries? = some es ∧ es.get? key = some part := by
  have hentries (es : Entries) : entryAt es (text key) = .ok part ↔ es.get? key = some part := by
    have hhashable : (text key).isHashable = true := rfl
    rw [entryAt, if_pos hhashable, valueAt?_text]
    cases es.get? key <;> simp
  cases v with
  | map mark es => simp [partAt, entries?, hentries]
  | view es => simp [partAt, entries?, hentries]
  | _ => simp [partAt, entries?, itemAt, place, asInt?, bind, Except.bind]

/-- Values that match have matching parts at a text. -/
theorem Matches.partAt_text {v w part : Value} (h : v.Matches w) (key : Text)
    (hpart : v.partAt (text key) = .ok part) :
    ∃ found, w.partAt (text key) = .ok found ∧ part.Matches found := by
  obtain ⟨es, hes, hget⟩ := partAt_text_eq_ok_iff.mp hpart
  obtain ⟨fs, hfs, hmatches⟩ := exists_of_rel h.entries? hes
  obtain ⟨found, hfound, hvalue⟩ := exists_of_rel (hmatches.get? key) hget
  exact ⟨found, partAt_text_eq_ok_iff.mpr ⟨fs, hfs, hfound⟩, hvalue⟩

theorem itemAt_eq_ok_iff {items : List Value} {index part : Value} :
    itemAt items index = .ok part ↔
      ∃ p, place items.length index = .ok p ∧ items[p]? = some part := by
  rw [itemAt, Fault.bind_eq_ok_iff]
  refine exists_congr fun p => and_congr_right fun _ => ?_
  cases items[p]? <;> simp [pure, Except.pure]

/-- Lists that match have matching items at an index. -/
theorem Matches.partAt_list {mark : Mark} {xs : List Value} {w part : Value}
    (h : (list mark xs).Matches w) (index : Value)
    (hpart : (list mark xs).partAt index = .ok part) :
    ∃ found, w.partAt index = .ok found ∧ part.Matches found := by
  obtain ⟨n, ys, rfl, items⟩ := matches_list_iff.mp h
  obtain ⟨p, hp, hitem⟩ := itemAt_eq_ok_iff.mp hpart
  obtain ⟨hx, rfl⟩ := List.getElem?_eq_some_iff.mp hitem
  have hy : p < ys.length := items.length_eq ▸ hx
  rw [items.length_eq] at hp
  exact ⟨ys[p], itemAt_eq_ok_iff.mpr ⟨p, hp, List.getElem?_eq_getElem hy⟩,
    (List.forall₂_iff_get.mp items).2 p hx hy⟩

end Value

end ManifestChain
