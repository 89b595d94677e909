import Mathlib.Data.List.Perm.Basic
import ManifestChain.Json.Basic
import ManifestChain.Proofs.Text.Order

/-!
# Documents up to the order of members

`Json.Alike` relates documents that differ only in the order of the members of their objects.
Sorting the members of every object gives each class of alike documents with distinct keys one
representative: documents are alike if and only if they have the same sorted form.
-/

namespace ManifestChain

namespace Json

/-! ## Members in ascending order -/

section Members

variable {α β : Type}

theorem insertMember_perm (key : Text) (x : α) (members : List (Text × α)) :
    (insertMember key x members).Perm ((key, x) :: members) := by
  induction members with
  | nil => rfl
  | cons m rest ih =>
      obtain ⟨k, y⟩ := m
      rw [insertMember]
      split
      · rfl
      · exact (ih.cons _).trans (List.Perm.swap _ _ _)

theorem sortMembers_perm (members : List (Text × α)) : (sortMembers members).Perm members := by
  induction members with
  | nil => rfl
  | cons m rest ih => exact (insertMember_perm _ _ _).trans (ih.cons m)

theorem insertMember_pairwise (key : Text) (x : α) {members : List (Text × α)}
    (h : members.Pairwise fun m n => m.1.le n.1 = true) :
    (insertMember key x members).Pairwise fun m n => m.1.le n.1 = true := by
  induction members with
  | nil => simp [insertMember]
  | cons m rest ih =>
      obtain ⟨k, y⟩ := m
      obtain ⟨hhead, htail⟩ := List.pairwise_cons.mp h
      rw [insertMember]
      split
      next hle =>
        refine List.pairwise_cons.mpr ⟨fun n hn => ?_, h⟩
        rcases List.mem_cons.mp hn with rfl | hn
        · exact hle
        · exact Text.le_trans hle (hhead n hn)
      next hnot =>
        refine List.pairwise_cons.mpr ⟨fun n hn => ?_, ih htail⟩
        rcases List.mem_cons.mp ((insertMember_perm key x rest).mem_iff.mp hn) with rfl | hn
        · exact (Text.le_total key k).resolve_left hnot
        · exact hhead n hn

theorem sortMembers_pairwise (members : List (Text × α)) :
    (sortMembers members).Pairwise fun m n => m.1.le n.1 = true := by
  induction members with
  | nil => exact List.Pairwise.nil
  | cons m rest ih => exact insertMember_pairwise _ _ ih

/-- Two members of one key are one member where keys are distinct. -/
theorem eq_of_mem_of_nodup {members : List (Text × α)} (h : (members.map Prod.fst).Nodup)
    {m n : Text × α} (hm : m ∈ members) (hn : n ∈ members) (heq : m.1 = n.1) : m = n := by
  induction members with
  | nil => simp at hm
  | cons first rest ih =>
      obtain ⟨hfirst, hrest⟩ := List.nodup_cons.mp h
      rcases List.mem_cons.mp hm with rfl | hm' <;> rcases List.mem_cons.mp hn with rfl | hn'
      · rfl
      · exact absurd (List.mem_map.mpr ⟨n, hn', heq.symm⟩) hfirst
      · exact absurd (List.mem_map.mpr ⟨m, hm', heq⟩) hfirst
      · exact ih hrest hm' hn'

/-- The sorted members do not depend on the order in which members of distinct keys come. -/
theorem sortMembers_eq_of_perm {ms ns : List (Text × α)} (h : (ms.map Prod.fst).Nodup)
    (hperm : ms.Perm ns) : sortMembers ms = sortMembers ns := by
  refine List.Perm.eq_of_pairwise ?_ (sortMembers_pairwise ms) (sortMembers_pairwise ns) ?_
  · intro m n hm hn hmn hnm
    have hm' := (sortMembers_perm ms).mem_iff.mp hm
    have hn' := hperm.mem_iff.mpr ((sortMembers_perm ns).mem_iff.mp hn)
    exact eq_of_mem_of_nodup h hm' hn' (Text.le_antisymm hmn hnm)
  · exact (sortMembers_perm ms).trans (hperm.trans (sortMembers_perm ns).symm)

theorem insertMember_map (f : α → β) (key : Text) (x : α) (members : List (Text × α)) :
    insertMember key (f x) (members.map (Prod.map id f)) =
      (insertMember key x members).map (Prod.map id f) := by
  induction members with
  | nil => rfl
  | cons m rest ih =>
      obtain ⟨k, y⟩ := m
      simp only [List.map_cons, Prod.map_apply, id_eq, insertMember, ih]
      split <;> rfl

/-- Sorting looks at the keys only. -/
theorem sortMembers_map (f : α → β) (members : List (Text × α)) :
    sortMembers (members.map (Prod.map id f)) = (sortMembers members).map (Prod.map id f) := by
  induction members with
  | nil => rfl
  | cons m rest ih =>
      obtain ⟨k, x⟩ := m
      simp only [List.map_cons, Prod.map_apply, id_eq, sortMembers, ih, insertMember_map]

/-- Sorted members of distinct keys ascend strictly. -/
theorem sortMembers_ascending {members : List (Text × α)} (h : (members.map Prod.fst).Nodup) :
    ((sortMembers members).map Prod.fst).Pairwise fun k l => k.le l = true ∧ k ≠ l := by
  have hle : ((sortMembers members).map Prod.fst).Pairwise fun k l => k.le l = true :=
    List.pairwise_map.mpr (sortMembers_pairwise members)
  have hne : ((sortMembers members).map Prod.fst).Nodup :=
    ((sortMembers_perm members).map Prod.fst).nodup_iff.mpr h
  exact hle.and hne

end Members

/-! ## Properties of every part -/

/-- A property of all documents holds if it holds of the leaves, of every array of items and of
every object of members that have it. -/
@[elab_as_elim, induction_eliminator]
theorem induction {motive : Json → Prop} (null : motive null) (bool : ∀ b, motive (bool b))
    (int : ∀ n, motive (int n)) (float : ∀ x, motive (float x)) (text : ∀ t, motive (text t))
    (array : ∀ items, (∀ j ∈ items, motive j) → motive (array items))
    (object : ∀ members, (∀ m ∈ members, motive m.2) → motive (object members)) (j : Json) :
    motive j :=
  Json.rec null bool int float text array object (fun _ h => absurd h List.not_mem_nil)
    (fun _ _ hj hjs k hk => (List.mem_cons.mp hk).elim (fun h => h ▸ hj) (hjs k))
    (fun _ h => absurd h List.not_mem_nil)
    (fun _ _ hm hms n hn => (List.mem_cons.mp hn).elim (fun h => h ▸ hm) (hms n))
    (fun _ _ hj => hj) j

mutual

/-- Whether a property holds of a document and of every document inside it. -/
def Every (p : Json → Prop) : Json → Prop
  | null => p null
  | bool b => p (bool b)
  | int n => p (int n)
  | float x => p (float x)
  | text t => p (text t)
  | array items => p (array items) ∧ EveryItem p items
  | object members => p (object members) ∧ EveryMember p members

def EveryItem (p : Json → Prop) : List Json → Prop
  | [] => True
  | j :: js => j.Every p ∧ EveryItem p js

def EveryMember (p : Json → Prop) : List (Text × Json) → Prop
  | [] => True
  | (_, j) :: ms => j.Every p ∧ EveryMember p ms

end

theorem every_array_iff {p : Json → Prop} {items : List Json} :
    (array items).Every p ↔ p (array items) ∧ ∀ j ∈ items, j.Every p := by
  have hitems : EveryItem p items ↔ ∀ j ∈ items, j.Every p := by
    induction items with
    | nil => simp [EveryItem]
    | cons j js ih => simp [EveryItem, ih]
  rw [Every, hitems]

theorem every_object_iff {p : Json → Prop} {members : List (Text × Json)} :
    (object members).Every p ↔ p (object members) ∧ ∀ m ∈ members, m.2.Every p := by
  have hmembers : EveryMember p members ↔ ∀ m ∈ members, m.2.Every p := by
    induction members with
    | nil => simp [EveryMember]
    | cons m ms ih => simp [EveryMember, ih]
  rw [Every, hmembers]

/-- The keys of an object are distinct. -/
def DistinctKeys : Json → Prop
  | object members => (members.map Prod.fst).Nodup
  | _ => True

/-- The keys of an object ascend strictly. -/
def AscendingKeys : Json → Prop
  | object members => (members.map Prod.fst).Pairwise fun k l => k.le l = true ∧ k ≠ l
  | _ => True

/-! ## Sorted documents -/

mutual

/-- The document with the members of every object in ascending order of their keys. -/
def sorted : Json → Json
  | null => null
  | bool b => bool b
  | int n => int n
  | float x => float x
  | text t => text t
  | array items => array (sortedItems items)
  | object members => object (sortMembers (sortedMembers members))

def sortedItems : List Json → List Json
  | [] => []
  | j :: js => j.sorted :: sortedItems js

def sortedMembers : List (Text × Json) → List (Text × Json)
  | [] => []
  | (k, j) :: ms => (k, j.sorted) :: sortedMembers ms

end

theorem sorted_array (items : List Json) : (array items).sorted = array (items.map sorted) := by
  have hitems : sortedItems items = items.map sorted := by
    induction items with
    | nil => rfl
    | cons j js ih => simp [sortedItems, ih]
  rw [sorted, hitems]

theorem sorted_object (members : List (Text × Json)) :
    (object members).sorted = object (sortMembers (members.map (Prod.map id sorted))) := by
  have hmembers : sortedMembers members = members.map (Prod.map id sorted) := by
    induction members with
    | nil => rfl
    | cons m ms ih => simp [sortedMembers, ih, Prod.map]
  rw [sorted, hmembers]

/-- A property of every part goes over to another one of every part of the sorted document, if
sorting a document with the first property gives the second. -/
theorem Every.sorted {p q : Json → Prop} (h : ∀ j, p j → q j.sorted) {j : Json}
    (hj : j.Every p) : j.sorted.Every q := by
  induction j with
  | null => exact h _ hj
  | bool b => exact h _ hj
  | int n => exact h _ hj
  | float x => exact h _ hj
  | text t => exact h _ hj
  | array items ih =>
      obtain ⟨htop, hitems⟩ := every_array_iff.mp hj
      have hq := h _ htop
      rw [sorted_array] at hq ⊢
      refine every_array_iff.mpr ⟨hq, fun k hk => ?_⟩
      obtain ⟨i, hi, rfl⟩ := List.mem_map.mp hk
      exact ih i hi (hitems i hi)
  | object members ih =>
      obtain ⟨htop, hmembers⟩ := every_object_iff.mp hj
      have hq := h _ htop
      rw [sorted_object] at hq ⊢
      refine every_object_iff.mpr ⟨hq, fun n hn => ?_⟩
      obtain ⟨m, hm, rfl⟩ := List.mem_map.mp ((sortMembers_perm _).mem_iff.mp hn)
      exact ih m hm (hmembers m hm)

/-- A property of every part of the sorted document goes back to one of every part of the document,
if it follows from that of each part sorted. -/
theorem Every.of_sorted {p q : Json → Prop} (h : ∀ j, q j.sorted → p j) {j : Json}
    (hj : j.sorted.Every q) : j.Every p := by
  induction j with
  | null => exact h _ hj
  | bool b => exact h _ hj
  | int n => exact h _ hj
  | float x => exact h _ hj
  | text t => exact h _ hj
  | array items ih =>
      rw [sorted_array] at hj
      obtain ⟨htop, hitems⟩ := every_array_iff.mp hj
      rw [← sorted_array] at htop
      exact every_array_iff.mpr
        ⟨h _ htop, fun k hk => ih k hk (hitems _ (List.mem_map_of_mem hk))⟩
  | object members ih =>
      rw [sorted_object] at hj
      obtain ⟨htop, hmembers⟩ := every_object_iff.mp hj
      rw [← sorted_object] at htop
      refine every_object_iff.mpr ⟨h _ htop, fun m hm => ih m hm ?_⟩
      exact hmembers (Prod.map id Json.sorted m)
        ((sortMembers_perm _).mem_iff.mpr (List.mem_map_of_mem hm))

/-- A property that sorting a document does not touch holds of every part of the sorted document if
and only if it holds of every part of the document. -/
theorem every_sorted_iff {p : Json → Prop} (h : ∀ k, p k.sorted ↔ p k) {j : Json} :
    j.sorted.Every p ↔ j.Every p :=
  ⟨Every.of_sorted fun k => (h k).mp, Every.sorted fun k => (h k).mpr⟩

theorem map_fst_map (f : Json → Json) (members : List (Text × Json)) :
    (members.map (Prod.map id f)).map Prod.fst = members.map Prod.fst := by
  simp

/-- In the sorted form of a document with distinct keys the keys ascend at every depth. -/
theorem Every.ascendingKeys_sorted {j : Json} (h : j.Every DistinctKeys) :
    j.sorted.Every AscendingKeys := by
  apply h.sorted
  intro k hk
  cases k with
  | object members =>
      rw [sorted_object]
      exact sortMembers_ascending (by rwa [map_fst_map])
  | array items => rw [sorted_array]; trivial
  | _ => trivial

theorem every_distinctKeys_sorted_iff {j : Json} :
    j.sorted.Every DistinctKeys ↔ j.Every DistinctKeys := by
  apply every_sorted_iff
  intro k
  cases k with
  | object members =>
      rw [sorted_object, DistinctKeys, DistinctKeys, ← map_fst_map Json.sorted members]
      exact ((sortMembers_perm _).map Prod.fst).nodup_iff
  | array items => rw [sorted_array]; exact Iff.rfl
  | _ => exact Iff.rfl

/-! ## Alike documents -/

/-- Two documents are the same but for the order of the members of their objects, at any depth. -/
inductive Alike : Json → Json → Prop
  | null : Alike null null
  | bool (b : Bool) : Alike (bool b) (bool b)
  | int (n : Int) : Alike (int n) (int n)
  | float (x : Binary64) : Alike (float x) (float x)
  | text (t : Text) : Alike (text t) (text t)
  | array {xs ys : List Json} (items : List.Forall₂ Alike xs ys) : Alike (array xs) (array ys)
  /-- The members have the same keys and alike values in one order of the second object's. -/
  | object {ms ns ordered : List (Text × Json)} (order : ordered.Perm ns)
      (keys : ms.map Prod.fst = ordered.map Prod.fst)
      (values : List.Forall₂ Alike (ms.map Prod.snd) (ordered.map Prod.snd)) :
      Alike (object ms) (object ns)

/-- Related items are related otherwise, where that follows for the items of the first list. -/
theorem forall₂_imp_of_mem {α β : Type} {r s : α → β → Prop} {xs : List α} {ys : List β}
    (h : List.Forall₂ r xs ys) (himp : ∀ x ∈ xs, ∀ y, r x y → s x y) : List.Forall₂ s xs ys := by
  induction h with
  | nil => exact .nil
  | cons hxy _ ih =>
      exact .cons (himp _ List.mem_cons_self _ hxy)
        (ih fun x hx => himp x (List.mem_cons_of_mem _ hx))

/-- What follows for every right-hand side of related items holds of all of them. -/
theorem forall_of_forall₂ {α β : Type} {r : α → β → Prop} {p : β → Prop} {xs : List α} {ys : List β}
    (h : List.Forall₂ r xs ys) (himp : ∀ x ∈ xs, ∀ y, r x y → p y) : ∀ y ∈ ys, p y := by
  induction h with
  | nil => simp
  | cons hxy _ ih =>
      exact List.forall_mem_cons.mpr ⟨himp _ List.mem_cons_self _ hxy,
        ih fun x hx => himp x (List.mem_cons_of_mem _ hx)⟩

theorem forall₂_map_eq_iff {α β : Type} {f : α → β} {xs ys : List α} :
    List.Forall₂ (fun x y => f x = f y) xs ys ↔ xs.map f = ys.map f := by
  rw [← List.forall₂_eq_eq_eq, List.forall₂_map_left_iff, List.forall₂_map_right_iff]

/-- An item of the first list is related to one of the second. -/
theorem exists_mem_of_forall₂ {α β : Type} {r : α → β → Prop} {xs : List α} {ys : List β}
    (h : List.Forall₂ r xs ys) {x : α} (hx : x ∈ xs) : ∃ y ∈ ys, r x y :=
  forall_of_forall₂ (p := fun x => ∃ y ∈ ys, r x y) h.flip (fun y hy _ hxy => ⟨y, hy, hxy⟩) x hx

/-- Members with sorted values are told by their keys and by their sorted values. -/
theorem map_sorted_eq_iff {ms ns : List (Text × Json)} :
    ms.map (Prod.map id Json.sorted) = ns.map (Prod.map id Json.sorted) ↔
      ms.map Prod.fst = ns.map Prod.fst ∧
        List.Forall₂ (fun x y => x.sorted = y.sorted) (ms.map Prod.snd) (ns.map Prod.snd) := by
  have hsnd (members : List (Text × Json)) : (members.map (Prod.map id Json.sorted)).map Prod.snd =
      (members.map Prod.snd).map Json.sorted := by
    rw [List.map_map, List.map_map]
    rfl
  rw [forall₂_map_eq_iff, ← hsnd, ← hsnd, ← map_fst_map Json.sorted ms,
    ← map_fst_map Json.sorted ns]
  constructor
  · intro h
    rw [h]
    exact ⟨rfl, rfl⟩
  · rintro ⟨hkeys, hvalues⟩
    rw [List.zip_of_prod hkeys hvalues, ← List.zip_of_prod rfl rfl]

theorem alike_sorted (j : Json) : j.Alike j.sorted := by
  induction j with
  | null => exact .null
  | bool b => exact .bool b
  | int n => exact .int n
  | float x => exact .float x
  | text t => exact .text t
  | array items ih =>
      rw [sorted_array]
      exact .array (List.forall₂_map_right_iff.mpr (List.forall₂_same.mpr ih))
  | object members ih =>
      rw [sorted_object]
      refine .object (sortMembers_perm _).symm (map_fst_map _ _).symm ?_
      rw [List.map_map, List.forall₂_map_left_iff, List.forall₂_map_right_iff, List.forall₂_same]
      exact ih

/-- Alike documents have one sorted form, if no object has two members of one key. -/
theorem Alike.sorted_eq {a b : Json} (h : a.Alike b) (ha : a.Every DistinctKeys) :
    a.sorted = b.sorted := by
  induction a generalizing b with
  | null => cases h; rfl
  | bool b => cases h; rfl
  | int n => cases h; rfl
  | float x => cases h; rfl
  | text t => cases h; rfl
  | array xs ih => cases h with
    | array items =>
        have hparts := (every_array_iff.mp ha).2
        rw [sorted_array, sorted_array, forall₂_map_eq_iff.mp
          (forall₂_imp_of_mem items fun x hx y hxy => ih x hx hxy (hparts x hx))]
  | object ms ih => cases h with
    | @object ms ns ordered order keys values =>
        obtain ⟨hkeys, hparts⟩ := every_object_iff.mp ha
        have hvalues : List.Forall₂ (fun x y => x.sorted = y.sorted) (ms.map Prod.snd)
            (ordered.map Prod.snd) := by
          apply forall₂_imp_of_mem values
          intro x hx y hxy
          obtain ⟨m, hm, rfl⟩ := List.mem_map.mp hx
          exact ih m hm hxy (hparts m hm)
        -- With sorted values both sides have the same members, only in another order.
        rw [sorted_object, sorted_object]
        apply congrArg Json.object
        apply sortMembers_eq_of_perm
        · rwa [map_fst_map]
        · rw [map_sorted_eq_iff.mpr ⟨keys, hvalues⟩]
          exact order.map _

/-- Documents of one sorted form are alike. -/
theorem alike_of_sorted_eq {a b : Json} (h : a.sorted = b.sorted) : a.Alike b := by
  induction a generalizing b with
  | null => cases b <;> simp [sorted] at h; exact .null
  | bool b => cases b <;> simp [sorted] at h; exact h ▸ .bool _
  | int n => cases b <;> simp [sorted] at h; exact h ▸ .int _
  | float x => cases b <;> simp [sorted] at h; exact h ▸ .float _
  | text t => cases b <;> simp [sorted] at h; exact h ▸ .text _
  | array xs ih => cases b with
    | array ys =>
        rw [sorted_array, sorted_array, Json.array.injEq] at h
        exact .array (forall₂_imp_of_mem (forall₂_map_eq_iff.mpr h) fun x hx y hxy => ih x hx hxy)
    | _ => simp [sorted] at h
  | object ms ih => cases b with
    | object ns =>
        rw [sorted_object, sorted_object, Json.object.injEq] at h
        have hperm : (ms.map (Prod.map id Json.sorted)).Perm (ns.map (Prod.map id Json.sorted)) :=
          (sortMembers_perm _).symm.trans (h ▸ sortMembers_perm _)
        -- The permutation is one of sorted members; it is carried back to the members of `b`.
        obtain ⟨ordered, hmembers, order⟩ :=
          (congrFun (congrFun (List.eq_map_comp_perm _) _) ns).mpr hperm
        obtain ⟨keys, hvalues⟩ := map_sorted_eq_iff.mp hmembers
        refine .object order keys (forall₂_imp_of_mem hvalues fun x hx y hxy => ?_)
        obtain ⟨m, hm, rfl⟩ := List.mem_map.mp hx
        exact ih m hm hxy
    | _ => simp [sorted] at h

end Json

end ManifestChain
