import ManifestChain.Application
import ManifestChain.Proofs.Fault
import ManifestChain.Proofs.Json.Encoding
import ManifestChain.Proofs.Value.Display

/-!
# Messages with an encoding

A value that is written inside a container has an encoding whatever it holds, for surrogates that
stand alone are escaped there. In running text only a text as it stands may hold one. Lower case
neither brings surrogates in nor takes them away.
-/

namespace ManifestChain

theorem LetterCase.isEncodable_lowerBetween (before : Text) (c : CodePoint) (after : Text) :
    (lowerBetween before c after).isEncodable = !c.isSurrogate := by
  unfold lowerBetween
  split
  case h_3 => split <;> rfl
  all_goals rfl

namespace Text

theorem isEncodable_cons (c : CodePoint) (t : Text) :
    isEncodable (c :: t) = (!c.isSurrogate && isEncodable t) := rfl

theorem isEncodable_lowerAfter (before t : Text) :
    (lowerAfter before t).isEncodable = t.isEncodable := by
  induction t generalizing before with
  | nil => rfl
  | cons c t ih =>
      rw [lowerAfter, isEncodable_append, LetterCase.isEncodable_lowerBetween, ih,
        isEncodable_cons]

theorem isEncodable_lower (t : Text) : t.lower.isEncodable = t.isEncodable :=
  isEncodable_lowerAfter [] t

theorem isEncodable_join (separator : String) {parts : List Text}
    (h : ∀ t ∈ parts, t.isEncodable = true) : (join separator parts).isEncodable = true := by
  induction parts using join.induct with
  | case1 => rfl
  | case2 t => exact h t List.mem_cons_self
  | case3 t u rest ih =>
      have hrest := ih fun v hv => h v (List.mem_cons_of_mem _ hv)
      simp [join, h t List.mem_cons_self, hrest]

theorem isEncodable_flatMap {α : Type} {f : α → Text} {xs : List α}
    (h : ∀ x ∈ xs, (f x).isEncodable = true) : isEncodable (xs.flatMap f) = true := by
  induction xs with
  | nil => rfl
  | cons x xs ih =>
      rw [List.flatMap_cons, isEncodable_append, h x List.mem_cons_self,
        ih fun y hy => h y (List.mem_cons_of_mem _ hy)]
      rfl

@[simp] theorem isEncodable_ofNat (n : Nat) : (ofNat n).isEncodable = true :=
  isEncodable_ofChars _

@[simp] theorem isEncodable_ofNatPadded (width n : Nat) :
    (ofNatPadded width n).isEncodable = true :=
  isEncodable_ofChars _

@[simp] theorem isEncodable_ofNatHex (width n : Nat) : (ofNatHex width n).isEncodable = true :=
  isEncodable_ofChars _

end Text

namespace Quoted

theorem isEncodable_escapeNumber (n : Nat) : (escapeNumber n).isEncodable = true := by
  unfold escapeNumber
  repeat' split
  all_goals simp

/-- A code point is shown as itself or by its number; a surrogate is never shown as itself. -/
theorem isEncodable_escape (quote : Char) (c : CodePoint) :
    (escape quote c).isEncodable = true := by
  simp only [escape]
  split
  next h =>
    rcases h with rfl | rfl <;> rfl
  next =>
    split
    next hprintable =>
      cases c with
      | scalar c => rfl
      | surrogate n => cases hprintable
    next =>
      split
      · exact isEncodable_escapeNumber _
      · split <;> simp

theorem isEncodable_text (t : Text) : (text t).isEncodable = true := by
  simp [text, Text.isEncodable_flatMap fun c _ => isEncodable_escape _ c]

theorem isEncodable_escapeByte (quote : Char) (b : UInt8) :
    (escapeByte quote b).isEncodable = true := by
  simp only [escapeByte]
  split
  · rfl
  · split
    · rfl
    · exact isEncodable_escapeNumber _

theorem isEncodable_bytes (bs : List UInt8) : (bytes bs).isEncodable = true := by
  simp [bytes, Text.isEncodable_flatMap fun b _ => isEncodable_escapeByte _ b]

end Quoted

theorem Date.isEncodable_text (d : Date) : d.text.isEncodable = true := by
  simp [Date.text]

theorem Clock.isEncodable_text (c : Clock) : c.text.isEncodable = true := by
  unfold Clock.text
  split <;> simp

theorem Timestamp.isEncodable_text {separator : Text} (h : separator.isEncodable = true)
    (t : Timestamp) : (t.text separator).isEncodable = true := by
  have hoffset : ((t.offset.map Offset.text).getD []).isEncodable = true := by
    cases t.offset with
    | none => rfl
    | some o =>
        simp only [Option.map_some, Option.getD_some, Offset.text]
        repeat' split
        all_goals simp
  simp [Timestamp.text, Date.isEncodable_text, Clock.isEncodable_text, h, hoffset]

namespace Value

theorem isEncodable_showInt {n : Int} {t : Text} (h : showInt n = .ok t) :
    t.isEncodable = true := by
  unfold showInt Numeral.ofInt? at h
  generalize Numeral.bound = bound at h
  by_cases hn : n.natAbs < bound
  · rw [if_pos hn] at h
    cases h
    split <;> simp
  · rw [if_neg hn] at h
    cases h

theorem isEncodable_showDate (d : Date) : (showDate d).isEncodable = true := by
  have hparts : (Text.join ", " ([d.year, d.month, d.day].map Text.ofNat)).isEncodable = true :=
    Text.isEncodable_join ", " (by simp)
  rw [showDate, Text.isEncodable_append, Text.isEncodable_append, hparts]
  rfl

theorem isEncodable_showOffset (o : Offset) : (showOffset o).isEncodable = true := by
  unfold showOffset
  split
  next => rfl
  next => split <;> simp

theorem isEncodable_showTimestamp (t : Timestamp) : (showTimestamp t).isEncodable = true := by
  simp only [showTimestamp]
  rw [Text.isEncodable_append, Text.isEncodable_append, Text.isEncodable_join ", "]
  · rfl
  · intro part hpart
    rcases List.mem_append.mp hpart with hfield | hzone
    · obtain ⟨n, -, rfl⟩ := List.mem_map.mp hfield
      exact Text.isEncodable_ofNat n
    · cases hoffset : t.offset with
      | none => simp [hoffset] at hzone
      | some o =>
          simp only [hoffset, List.mem_singleton] at hzone
          simp [hzone, isEncodable_showOffset]

theorem isEncodable_bracketed (opening closing : String) {parts : List Text}
    (h : ∀ t ∈ parts, t.isEncodable = true) :
    (bracketed opening closing parts).isEncodable = true := by
  simp [bracketed, Text.isEncodable_join ", " h]

theorem isEncodable_tupled {parts : List Text} (h : ∀ t ∈ parts, t.isEncodable = true) :
    (tupled parts).isEncodable = true := by
  unfold tupled
  split
  next t => simp [h t List.mem_cons_self]
  next => exact isEncodable_bracketed _ _ h

theorem isEncodable_quotedItems {items : List Value} {ts : List Text}
    (ih : ∀ x ∈ items, ∀ {t}, x.quoted = .ok t → t.isEncodable = true)
    (h : quotedItems items = .ok ts) : ∀ t ∈ ts, t.isEncodable = true :=
  Json.forall_of_forall₂ (quotedItems_eq_ok_iff.mp h) fun x hx _ => ih x hx

theorem isEncodable_quotedEntries {entries : Entries} {ts : List Text}
    (ih : ∀ e ∈ entries, (∀ {t}, e.1.quoted = .ok t → t.isEncodable = true) ∧
      ∀ {t}, e.2.quoted = .ok t → t.isEncodable = true)
    (h : quotedEntries entries = .ok ts) : ∀ t ∈ ts, t.isEncodable = true := by
  refine Json.forall_of_forall₂ (quotedEntries_eq_ok_iff.mp h) fun e he t ht => ?_
  obtain ⟨kt, vt, hkt, hvt, rfl⟩ := ht
  simp [(ih e he).1 hkt, (ih e he).2 hvt]

/-- Whatever a value holds, it is written inside a container by a text with an encoding. -/
theorem isEncodable_quoted {v : Value} {t : Text} (h : v.quoted = .ok t) :
    t.isEncodable = true := by
  induction v generalizing t with
  | null => cases h; rfl
  | bool b => cases h; cases b <;> rfl
  | int n => exact isEncodable_showInt h
  | float x => cases h; exact Json.isEncodable_number rfl rfl x
  | text s => cases h; exact Quoted.isEncodable_text s
  | bytes b => cases h; exact Quoted.isEncodable_bytes b
  | list mark items ih =>
      obtain ⟨ts, hts, h⟩ := Fault.bind_eq_ok_iff.mp h
      cases h
      exact isEncodable_bracketed _ _ (isEncodable_quotedItems ih hts)
  | tuple items ih =>
      obtain ⟨ts, hts, h⟩ := Fault.bind_eq_ok_iff.mp h
      cases h
      exact isEncodable_tupled (isEncodable_quotedItems ih hts)
  | set mark items ih =>
      rw [quoted] at h
      split at h
      next => cases h; rfl
      next =>
        obtain ⟨ts, hts, h⟩ := Fault.bind_eq_ok_iff.mp h
        cases h
        exact isEncodable_bracketed _ _ (isEncodable_quotedItems ih hts)
  | map mark entries ih =>
      obtain ⟨ts, hts, h⟩ := Fault.bind_eq_ok_iff.mp h
      cases h
      exact isEncodable_bracketed _ _ (isEncodable_quotedEntries ih hts)
  | view entries ih =>
      obtain ⟨ts, hts, h⟩ := Fault.bind_eq_ok_iff.mp h
      cases h
      simp [isEncodable_bracketed _ _ (isEncodable_quotedEntries ih hts)]
  | date mark d => cases h; exact isEncodable_showDate d
  | timestamp mark s => cases h; exact isEncodable_showTimestamp s
  | foreign => cases h; rfl
  | rendering manifest => cases h; rfl
  | template name labels payload ihname ihlabels ihpayload =>
      obtain ⟨n, hn, h⟩ := Fault.bind_eq_ok_iff.mp h
      obtain ⟨ls, hls, h⟩ := Fault.bind_eq_ok_iff.mp h
      obtain ⟨p, hp, h⟩ := Fault.bind_eq_ok_iff.mp h
      cases h
      simp [ihname hn, isEncodable_bracketed _ _ (isEncodable_quotedEntries ihlabels hls),
        ihpayload hp]
  | application name selector templates ihname ihselector ihtemplates =>
      obtain ⟨n, hn, h⟩ := Fault.bind_eq_ok_iff.mp h
      obtain ⟨ls, hls, h⟩ := Fault.bind_eq_ok_iff.mp h
      obtain ⟨ts, hts, h⟩ := Fault.bind_eq_ok_iff.mp h
      cases h
      simp [ihname hn, isEncodable_bracketed _ _ (isEncodable_quotedEntries ihselector hls),
        isEncodable_tupled (isEncodable_quotedItems ihtemplates hts)]
  | deploymentChild manifest containers ihmanifest ihcontainers =>
      obtain ⟨m, hm, h⟩ := Fault.bind_eq_ok_iff.mp h
      obtain ⟨cs, hcs, h⟩ := Fault.bind_eq_ok_iff.mp h
      cases h
      simp [ihmanifest hm, ihcontainers hcs]
  | serviceChild manifest ih =>
      obtain ⟨m, hm, h⟩ := Fault.bind_eq_ok_iff.mp h
      cases h
      simp [ih hm]
  | otherChild value reason ihvalue ihreason =>
      obtain ⟨s, hs, h⟩ := Fault.bind_eq_ok_iff.mp h
      obtain ⟨r, hr, h⟩ := Fault.bind_eq_ok_iff.mp h
      cases h
      simp [ihvalue hs, ihreason hr]
  | translator s => cases h; cases s <;> rfl
  | constant result => cases h; rfl

/-- In running text only a text can hold a surrogate that stands alone. -/
theorem isEncodable_shown {v : Value} {t : Text} (hv : ∀ s, v = .text s → s.isEncodable = true)
    (h : v.shown = .ok t) : t.isEncodable = true := by
  unfold shown at h
  split at h
  next =>
    cases h
    exact hv _ rfl
  next mark d =>
    cases h
    exact d.isEncodable_text
  next mark s =>
    cases h
    exact s.isEncodable_text rfl
  next => exact isEncodable_quoted h
  next => exact isEncodable_quoted h

end Value

end ManifestChain
