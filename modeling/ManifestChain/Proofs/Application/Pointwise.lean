import ManifestChain.Proofs.Application.Kind

/-!
# Wrapping child by child

Wrapping is all or nothing: if every child has a payload, the application holds one template for
each, made of the payload and the kind of that child alone; otherwise the fault of the first child
without a payload is that of the whole. For a workload of texts there is no other fault.
-/

namespace ManifestChain

variable {workload : Workload} {ctx : Context} {labels : Entries} {name : Text}

/-- A child has a payload at its index among the children of a workload. -/
def Value.HasPayload (child : Value) (workload : Workload) (index : Nat) : Prop :=
  ∃ bytes, child.payload workload.name (some index) = .ok bytes

namespace Template

/-- The template that is made of a child at an index: its payload, the labels, and a name of the
workload's and the child's kind in lower case. -/
structure MadeOf (workload : Workload) (labels : Entries) (index : Nat) (child : Value)
    (t : Template) : Prop where
  payload : child.payload workload.name (some index) = .ok t.payload
  labels : t.labels = labels
  name : ∃ owner mark entries kind, workload.name = .text owner ∧
    child.manifest = .ok (.map mark entries) ∧ Value.KindShown entries kind ∧
    t.name = .text (owner ++ "-" ++ kind.lower)

/-- A child that has a payload becomes a template, and the context stays as it is. -/
theorem ofChild_of_payload {index : Nat} {child : Value} (hname : workload.name = .text name)
    (hlabels : ctx.labels workload = .ok labels) (h : child.HasPayload workload index) :
    ∃ t, (ofChild workload index child).runIn ctx = (.ok t, ctx) ∧
      MadeOf workload labels index child t := by
  obtain ⟨bytes, hbytes⟩ := h
  obtain ⟨mark, entries, kind, hmanifest, hkind⟩ := Value.exists_kindText_of_payload hbytes
  have hnameOf : nameOf workload child = .ok (name ++ "-" ++ kind.lower) := by
    rw [nameOf, hname, (Value.kindText_eq_ok_iff hmanifest).mpr hkind]
    rfl
  refine ⟨⟨.text (name ++ "-" ++ kind.lower), labels, bytes⟩, ?_,
    ⟨hbytes, rfl, name, mark, entries, kind, hname, hmanifest, hkind, rfl⟩⟩
  apply Run.runIn_ofExcept_bind_eq_ok_iff.mpr
  refine ⟨bytes, hbytes, Run.runIn_ofExcept_bind_eq_ok_iff.mpr ⟨_, hnameOf, ?_⟩⟩
  exact Run.runIn_labels_bind_eq_ok_iff.mpr ⟨labels, hlabels, rfl⟩

theorem ofChild_of_fault {index : Nat} {child : Value} {e : Fault}
    (h : child.payload workload.name (some index) = .error e) :
    (ofChild workload index child).runIn ctx = (.error e, ctx) := by
  rw [ofChild, Run.runIn_bind, Run.runIn_ofExcept, h]

/-- Children that all have payloads become templates one by one. -/
theorem ofChildren_of_payloads (first : Nat) {children : List Value}
    (hname : workload.name = .text name) (hlabels : ctx.labels workload = .ok labels)
    (h : ∀ (i : Nat) (child : Value), children[i]? = some child →
      child.HasPayload workload (first + i)) :
    ∃ templates, (ofChildren workload first children).runIn ctx = (.ok templates, ctx) ∧
      templates.length = children.length ∧ ∀ i child t, children[i]? = some child →
        templates[i]? = some t → MadeOf workload labels (first + i) child t := by
  induction children generalizing first with
  | nil => exact ⟨[], rfl, rfl, fun i child t hchild => by simp at hchild⟩
  | cons child rest ih =>
      obtain ⟨t, hrun, hmade⟩ := ofChild_of_payload hname hlabels (h 0 child rfl)
      obtain ⟨ts, hrest, hlength, hall⟩ := ih (first + 1) fun i child hchild => by
        rw [Nat.add_assoc, Nat.add_comm 1 i]
        exact h (i + 1) child hchild
      refine ⟨t :: ts, ?_, by rw [List.length_cons, hlength, List.length_cons], ?_⟩
      · exact Run.runIn_bind_eq_ok_iff.mpr
          ⟨t, ctx, hrun, Run.runIn_bind_eq_ok_iff.mpr ⟨ts, ctx, hrest, rfl⟩⟩
      · rintro (_ | i) c u hc hu
        · cases hc
          cases hu
          exact hmade
        · rw [Nat.add_comm i 1, ← Nat.add_assoc]
          exact hall i c u hc hu

/-- The first child without a payload ends the making of templates in its fault. -/
theorem ofChildren_of_fault (first : Nat) {i : Nat} {children : List Value} {child : Value}
    {e : Fault} (hname : workload.name = .text name) (hlabels : ctx.labels workload = .ok labels)
    (hchild : children[i]? = some child)
    (hfault : child.payload workload.name (some (first + i : Nat)) = .error e)
    (hbefore : ∀ j earlier, j < i → children[j]? = some earlier →
      earlier.HasPayload workload (first + j)) :
    (ofChildren workload first children).runIn ctx = (.error e, ctx) := by
  induction children generalizing first i with
  | nil => simp at hchild
  | cons c rest ih =>
      cases i with
      | zero =>
          cases hchild
          have hfirst : child.payload workload.name (some first) = .error e := hfault
          rw [ofChildren, Run.runIn_bind, ofChild_of_fault hfirst]
      | succ i =>
          have hfirst : c.HasPayload workload first := hbefore 0 c (Nat.succ_pos i) rfl
          obtain ⟨t, hrun, -⟩ := ofChild_of_payload hname hlabels hfirst
          have hrest : (ofChildren workload (first + 1) rest).runIn ctx = (.error e, ctx) := by
            refine ih (first + 1) hchild ?_ fun j earlier hj hearlier => ?_
            · rwa [Nat.add_assoc, Nat.add_comm 1 i]
            · rw [Nat.add_assoc, Nat.add_comm 1 j]
              exact hbefore (j + 1) earlier (Nat.succ_lt_succ hj) hearlier
          rw [ofChildren, Run.runIn_bind, hrun]
          simp only
          rw [Run.runIn_bind, hrest]

end Template

namespace Application

/-- Children that all have payloads are wrapped in an application. -/
theorem exists_wrap?_of_payloads {children : List Value} (hname : workload.name = .text name)
    (hlabels : ctx.labels workload = .ok labels) (hne : children ≠ []) (mark : Mark)
    (h : ∀ (i : Nat) (child : Value), children[i]? = some child → child.HasPayload workload i) :
    ∃ templates, (wrap? workload (.list mark children)).runIn ctx =
        (.ok (some ⟨.text name, labels, templates⟩), ctx) ∧
      templates.length = children.length ∧ ∀ i child t, children[i]? = some child →
        templates[i]? = some t → Template.MadeOf workload labels i child t := by
  obtain ⟨templates, hrun, hlength, hall⟩ := Template.ofChildren_of_payloads 0 hname
    hlabels fun i child hchild => by
      rw [Nat.zero_add]
      exact h i child hchild
  refine ⟨templates, ?_, hlength, fun i child t hchild ht => ?_⟩
  · rw [wrap?_of_ne_nil mark hne, ← hname]
    apply Run.runIn_bind_eq_ok_iff.mpr
    exact ⟨templates, ctx, hrun, Run.runIn_labels_bind_eq_ok_iff.mpr ⟨_, hlabels, rfl⟩⟩
  · rw [← Nat.zero_add i]
    exact hall i child t hchild ht

/-- For a workload whose name and identity are texts, a label that is a text and any children, at
least one: if every child has a payload, the application of the workload's name, with its label for
selector, holds one template for each child, in order; if not, the first child without a payload
gives its fault, and there is no application. The context stays as it is. -/
theorem wrap?_pointwise {uid key : Text} {children : List Value}
    (hname : workload.name = .text name) (huid : workload.uid = .text uid)
    (hkey : ctx.labelKey = .text key) (hne : children ≠ []) (mark : Mark) :
    ((∀ (i : Nat) (child : Value), children[i]? = some child → child.HasPayload workload i) →
      ∃ templates, (wrap? workload (.list mark children)).runIn ctx =
          (.ok (some ⟨.text name, [(.text key, .text uid)], templates⟩), ctx) ∧
        templates.length = children.length ∧ ∀ i child t, children[i]? = some child →
          templates[i]? = some t → Template.MadeOf workload [(.text key, .text uid)] i child t) ∧
    ∀ (i : Nat) (child : Value) (e : Fault), children[i]? = some child →
      child.payload workload.name (some i) = .error e →
      (∀ j earlier, j < i → children[j]? = some earlier → earlier.HasPayload workload j) →
      (wrap? workload (.list mark children)).runIn ctx = (.error e, ctx) := by
  have hlabels : ctx.labels workload = .ok [(.text key, .text uid)] := by
    rw [Context.labels, hkey, huid]
    rfl
  refine ⟨exists_wrap?_of_payloads hname hlabels hne mark,
    fun i child e hchild hfault hbefore => ?_⟩
  have hrun := Template.ofChildren_of_fault 0 hname hlabels hchild
    (by rwa [Nat.zero_add]) fun j earlier hj hearlier => by
      rw [Nat.zero_add]
      exact hbefore j earlier hj hearlier
  rw [wrap?_of_ne_nil mark hne, Run.runIn_bind, hrun]

/-- A deployment becomes one template; before a number, which is no manifest, it becomes none. -/
theorem wrap?_pointwise_number :
    let workload : Workload := ⟨"w", "", "u"⟩
    let deployment : Value := .ofEntries [("kind", "Deployment")]
    (∃ templates, (wrap? workload (.list none [deployment])).runIn .initial =
        (.ok (some ⟨"w", [(.text defaultLabelKey, "u")], templates⟩), .initial) ∧
      templates.length = 1) ∧
    (wrap? workload (.list none [deployment, .int 5, .null])).runIn .initial =
      (.error (.serialization (.notManifest "int") "w" (some 1)), .initial) := by
  intro workload deployment
  have hpayload : deployment.HasPayload workload 0 :=
    ⟨[0x7b, 0x22, 0x6b, 0x69, 0x6e, 0x64, 0x22, 0x3a, 0x22, 0x44, 0x65, 0x70, 0x6c, 0x6f, 0x79,
      0x6d, 0x65, 0x6e, 0x74, 0x22, 0x7d], by rfl⟩
  have hname : workload.name = .text "w" := rfl
  have huid : workload.uid = .text "u" := rfl
  have hkey : Context.initial.labelKey = .text defaultLabelKey := rfl
  constructor
  · have hpayloads : ∀ (i : Nat) (child : Value), [deployment][i]? = some child →
        child.HasPayload workload i := by
      rintro (_ | i) child hchild
      · cases hchild
        exact hpayload
      · simp at hchild
    obtain ⟨templates, hrun, hlength, -⟩ :=
      (wrap?_pointwise hname huid hkey (List.cons_ne_nil deployment []) none).1 hpayloads
    exact ⟨templates, hrun, hlength⟩
  · refine (wrap?_pointwise hname huid hkey
      (List.cons_ne_nil deployment [.int 5, .null]) none).2 1 (.int 5) _ rfl rfl ?_
    rintro (_ | j) earlier hj hearlier
    · cases hearlier
      exact hpayload
    · omega

end Application

end ManifestChain
