import ManifestChain.Proofs.Json.Members
import ManifestChain.Proofs.Json.Number
import ManifestChain.Proofs.Text.Encoding

/-!
# Documents read back

A printed document is read back as it is, whatever stands after it, if its integers keep the limit
of digits, its numbers are finite and the keys of its objects are distinct. Each token ends where
the next one starts: a string with its quote, and a number before a comma or a closing bracket.
-/

namespace ManifestChain

namespace Json

open Text (EndsNumber)

/-! ## Strings -/

/-- The number that a text of four hexadecimal digits denotes. -/
def hexValue? : Text → Option Nat
  | [a, b, c, d] => hex4? a b c d
  | _ => none

/-- A control character is escaped by four digits that denote it. -/
theorem hex4?_ofNatHex {n : Nat} (hn : n < 0x20) :
    ∃ a b c d, Text.ofNatHex 4 n = [a, b, c, d] ∧ hex4? a b c d = some n := by
  have hall : ∀ n < 0x20, hexValue? (Text.ofNatHex 4 n) = some n := by decide
  have hvalue := hall n hn
  unfold hexValue? at hvalue
  split at hvalue
  next a b c d hdigits => exact ⟨a, b, c, d, hdigits, hvalue⟩
  next => cases hvalue

/-- A control character is never the first half of a pair of surrogates. -/
theorem joined?_of_lt {n : Nat} (hn : n < 0x20) (low : Nat) : joined? n low = none := by
  rw [joined?, if_neg (by omega)]

/-- A code point put in front of the content of a string. -/
def prepend (c : CodePoint) (r : Text × Text) : Text × Text := (c :: r.1, r.2)

theorem parseText_letter {x : Char} {c : CodePoint} (hx : unescape? (.scalar x) = some c)
    (t : Text) : parseText (.scalar '\\' :: .scalar x :: t) = (parseText t).map (prepend c) := by
  have hu : x ≠ 'u' := fun heq => by simp [heq, unescape?] at hx
  rw [parseText]
  · rw [hx]
    cases parseText t <;> rfl
  · intro a b c d rest h
    exact absurd (CodePoint.scalar.inj h) hu

theorem parseText_hex {n : Nat} (hn : n < 0x20) {c : CodePoint} (hc : CodePoint.ofNat? n = some c)
    (t : Text) :
    parseText (.scalar '\\' :: .scalar 'u' :: (Text.ofNatHex 4 n ++ t)) =
      (parseText t).map (prepend c) := by
  obtain ⟨w, x, y, z, hdigits, hvalue⟩ := hex4?_ofNatHex hn
  have hnone (low : Option Nat) : low.bind (joined? n) = none := by
    cases low with
    | none => rfl
    | some low => exact joined?_of_lt hn low
  simp only [hdigits, List.cons_append, List.nil_append]
  rw [parseText, hvalue]
  simp only [hnone, hc, Option.bind_eq_bind, Option.bind_some]
  split
  · cases parseText _ <;> rfl
  · cases parseText _ <;> rfl

theorem parseText_literal {c : CodePoint} (hlow : ¬c.value < 0x20) (hquote : c ≠ .scalar '"')
    (hslash : c ≠ .scalar '\\') (t : Text) :
    parseText (c :: t) = (parseText t).map (prepend c) := by
  rw [parseText]
  · rw [if_neg (not_or.mpr ⟨hlow, hslash⟩)]
    cases parseText t <;> rfl
  · exact hquote
  · rintro a b c d rest rfl
    exact absurd rfl hslash
  · rintro a rest rfl
    exact absurd rfl hslash

/-- An escaped code point is read as one step of the string. -/
theorem parseText_escape (c : CodePoint) (t : Text) :
    parseText (escape c ++ t) = (parseText t).map (prepend c) := by
  unfold escape
  split
  case h_8 hquote hslash _ _ _ _ _ =>
    split
    next hlow => exact parseText_hex hlow (CodePoint.ofNat?_value c) t
    next hhigh => exact parseText_literal hhigh hquote hslash t
  all_goals exact parseText_letter rfl t

/-- A string is read back up to its closing quote. -/
theorem parseText_flatMap_escape (t rest : Text) :
    parseText (t.flatMap escape ++ .scalar '"' :: rest) = some (t, rest) := by
  induction t with
  | nil => rfl
  | cons c t ih => rw [List.flatMap_cons, List.append_assoc, parseText_escape, ih]; rfl

theorem printText_append (t rest : Text) :
    printText t ++ rest = .scalar '"' :: (t.flatMap escape ++ .scalar '"' :: rest) := by
  simp [printText]

/-! ## The start and the end of a value -/

/-- No value starts with a blank or with a closing bracket. -/
theorem parseValue_error {c : Char} (hc : c ∈ [' ', '\t', '\n', '\r', ']']) (fuel : Nat)
    (t : Text) :
    parseValue fuel (.scalar c :: t) = .error .malformedJson := by
  simp only [List.mem_cons, List.not_mem_nil, or_false] at hc
  rcases hc with rfl | rfl | rfl | rfl | rfl
  all_goals cases fuel <;> rfl

theorem skipBlank_of_parseValue {fuel : Nat} {t : Text} {r : Json × Text}
    (h : parseValue fuel t = .ok r) : skipBlank t = t := by
  cases t with
  | nil => rfl
  | cons c t =>
      apply List.dropWhile_cons_of_neg
      intro hblank
      simp only [isBlank, Bool.or_eq_true, decide_eq_true_eq] at hblank
      rcases hblank with ((rfl | rfl) | rfl) | rfl
      all_goals
        rw [parseValue_error (by simp)] at h
        cases h

theorem ne_bracket_of_parseValue {fuel : Nat} {t : Text} {r : Json × Text}
    (h : parseValue fuel t = .ok r) (after : Text) : t ≠ .scalar ']' :: after := by
  rintro rfl
  rw [parseValue_error (by simp)] at h
  cases h

theorem endsNumber_printItems (items : List Json) (rest : Text) :
    EndsNumber (printItems items ++ rest) := by
  cases items <;> exact ⟨by decide, by decide, by decide, by decide⟩

theorem endsNumber_printMembers (members : List (Text × Json)) (rest : Text) :
    EndsNumber (printMembers members ++ rest) := by
  cases members <;> exact ⟨by decide, by decide, by decide, by decide⟩

/-! ## Values -/

/-- The text of a document is read as it, with more fuel than the text is long. -/
def ReadsBack (j : Json) : Prop :=
  ∀ (fuel : Nat) (rest : Text), j.print.length < fuel → EndsNumber rest →
    parseValue fuel (j.print ++ rest) = .ok (j, rest)

theorem ReadsBack.skipBlank {j : Json} (h : ReadsBack j) {rest : Text} (hrest : EndsNumber rest) :
    skipBlank (j.print ++ rest) = j.print ++ rest :=
  skipBlank_of_parseValue (h _ rest (Nat.lt_succ_self _) hrest)

/-- Items that are read back one by one are read back in a row. -/
theorem parseItems_print {j : Json} {js : List Json} (hj : ReadsBack j)
    (hjs : ∀ k ∈ js, ReadsBack k) {fuel : Nat} (rest : Text)
    (hfuel : (j.print ++ printItems js).length < fuel) :
    parseItems fuel (j.print ++ (printItems js ++ rest)) = .ok (j :: js, rest) := by
  -- Every item takes one unit of fuel, which the comma or the bracket after it makes up for.
  induction js generalizing j fuel with
  | nil =>
      obtain ⟨fuel, rfl⟩ := Nat.exists_eq_add_one_of_ne_zero (Nat.ne_zero_of_lt hfuel)
      simp only [List.length_append, printItems, List.length_singleton] at hfuel
      rw [parseItems, hj fuel _ (by omega) (endsNumber_printItems [] rest)]
      rfl
  | cons k js ih =>
      obtain ⟨fuel, rfl⟩ := Nat.exists_eq_add_one_of_ne_zero (Nat.ne_zero_of_lt hfuel)
      simp only [List.length_append, printItems, List.length_cons] at hfuel
      have hk := hjs k List.mem_cons_self
      have hstart := hk.skipBlank (endsNumber_printItems js rest)
      have hlength : (k.print ++ printItems js).length < fuel := by
        rw [List.length_append]
        omega
      have hitems := ih hk (fun l hl => hjs l (List.mem_cons_of_mem _ hl)) hlength
      rw [parseItems, hj fuel _ (by omega) (endsNumber_printItems (k :: js) rest), printItems,
        List.cons_append, List.append_assoc]
      rw [← hstart] at hitems
      change (parseItems fuel (Json.skipBlank _) >>= fun r => .ok (j :: r.1, r.2)) = _
      rw [hitems]
      rfl

/-- A member is read by its key, the colon and its value; a closing brace ends the object. -/
theorem parseMembers_last {fuel : Nat} {key : Text} {j : Json} {t rest : Text}
    (h : parseValue fuel t = .ok (j, .scalar '\x7d' :: rest)) :
    parseMembers (fuel + 1) (printText key ++ .scalar ':' :: t) = .ok ([(key, j)], rest) := by
  rw [printText_append, parseMembers, parseText_flatMap_escape]
  change (parseValue fuel (skipBlank t) >>= _) = _
  rw [skipBlank_of_parseValue h, h]
  rfl

/-- After a comma, the members go on. -/
theorem parseMembers_next {fuel : Nat} {key : Text} {j : Json} {t more rest : Text}
    {ms : List (Text × Json)} (h : parseValue fuel t = .ok (j, .scalar ',' :: more))
    (hmore : skipBlank more = more) (hms : parseMembers fuel more = .ok (ms, rest)) :
    parseMembers (fuel + 1) (printText key ++ .scalar ':' :: t) = .ok ((key, j) :: ms, rest) := by
  rw [printText_append, parseMembers, parseText_flatMap_escape]
  change (parseValue fuel (skipBlank t) >>= _) = _
  rw [skipBlank_of_parseValue h, h]
  change (parseMembers fuel (skipBlank more) >>= fun r => .ok ((key, j) :: r.1, r.2)) = _
  rw [hmore, hms]
  rfl

/-- Members whose values are read back one by one are read back in a row. -/
theorem parseMembers_print {key : Text} {j : Json} {ms : List (Text × Json)} (hj : ReadsBack j)
    (hms : ∀ m ∈ ms, ReadsBack m.2) {fuel : Nat} (rest : Text)
    (hfuel : (printText key ++ .scalar ':' :: (j.print ++ printMembers ms)).length < fuel) :
    parseMembers fuel (printText key ++ .scalar ':' :: (j.print ++ (printMembers ms ++ rest))) =
      .ok ((key, j) :: ms, rest) := by
  induction ms generalizing key j fuel with
  | nil =>
      obtain ⟨fuel, rfl⟩ := Nat.exists_eq_add_one_of_ne_zero (Nat.ne_zero_of_lt hfuel)
      simp only [List.length_append, printMembers, List.length_cons] at hfuel
      exact parseMembers_last (hj fuel _ (by omega) (endsNumber_printMembers [] rest))
  | cons m ms ih =>
      obtain ⟨k, v⟩ := m
      obtain ⟨fuel, rfl⟩ := Nat.exists_eq_add_one_of_ne_zero (Nat.ne_zero_of_lt hfuel)
      simp only [List.length_append, printMembers, List.length_cons] at hfuel
      have hlength :
          (printText k ++ .scalar ':' :: (v.print ++ printMembers ms)).length < fuel := by
        simp only [List.length_append, List.length_cons]
        omega
      have hmembers := ih (hms (k, v) List.mem_cons_self)
        (fun n hn => hms n (List.mem_cons_of_mem _ hn)) hlength
      have hvalue := hj fuel _ (by omega) (endsNumber_printMembers ((k, v) :: ms) rest)
      rw [printMembers, List.cons_append] at hvalue ⊢
      refine parseMembers_next hvalue ?_ ?_
      · rw [List.append_assoc, printText_append]
        rfl
      · simpa using hmembers

/-- Numbers and words are values as they stand. -/
theorem parseValue_of_parseLeaf {t : Text} {r : Json × Text} (h : parseLeaf t = .ok r)
    (fuel : Nat) : parseValue (fuel + 1) t = .ok r := by
  have hopening (c : Char) (hc : c ∈ ['"', '[', '\x7b']) (rest : Text) : t ≠ .scalar c :: rest := by
    rintro rfl
    simp only [List.mem_cons, List.not_mem_nil, or_false] at hc
    rcases hc with rfl | rfl | rfl <;> cases h
  rw [parseValue]
  · exact h
  · exact fun rest => hopening '"' (by simp) rest
  · exact fun rest => hopening '[' (by simp) rest
  · exact fun rest => hopening '\x7b' (by simp) rest

theorem ReadsBack.text (t : Text) : ReadsBack (text t) := by
  intro fuel rest hfuel _
  obtain ⟨fuel, rfl⟩ := Nat.exists_eq_add_one_of_ne_zero (Nat.ne_zero_of_lt hfuel)
  rw [print, printText_append, parseValue, parseText_flatMap_escape]

/-- An array is read back if its items are: none of them starts with the bracket that would close an
empty array. -/
theorem ReadsBack.array {items : List Json} (hitems : ∀ i ∈ items, ReadsBack i) :
    ReadsBack (array items) := by
  intro fuel rest hfuel _
  obtain ⟨fuel, rfl⟩ := Nat.exists_eq_add_one_of_ne_zero (Nat.ne_zero_of_lt hfuel)
  cases items with
  | nil => rfl
  | cons k ks =>
      have hk := hitems k List.mem_cons_self
      have hstart := hk.skipBlank (endsNumber_printItems ks rest)
      have hbracket := ne_bracket_of_parseValue (hk _ _ (Nat.lt_succ_self _)
        (endsNumber_printItems ks rest))
      rw [print, List.length_cons] at hfuel
      have hrow := parseItems_print hk (fun i hi => hitems i (List.mem_cons_of_mem _ hi)) rest
        (Nat.lt_of_succ_lt_succ hfuel)
      rw [print, List.cons_append, List.append_assoc, parseValue, hstart]
      split
      next after heq => exact absurd heq (hbracket after)
      next =>
        rw [hrow]
        rfl

/-- An object of distinct keys is read back if the values of its members are. -/
theorem ReadsBack.object {members : List (Text × Json)} (hkeys : (members.map Prod.fst).Nodup)
    (hmembers : ∀ m ∈ members, ReadsBack m.2) : ReadsBack (object members) := by
  intro fuel rest hfuel _
  obtain ⟨fuel, rfl⟩ := Nat.exists_eq_add_one_of_ne_zero (Nat.ne_zero_of_lt hfuel)
  cases members with
  | nil => rfl
  | cons m ms =>
      obtain ⟨k, v⟩ := m
      rw [print, List.length_cons] at hfuel
      have hrow := parseMembers_print (hmembers (k, v) List.mem_cons_self)
        (fun n hn => hmembers n (List.mem_cons_of_mem _ hn)) rest (Nat.lt_of_succ_lt_succ hfuel)
      rw [print, List.cons_append, List.append_assoc, List.cons_append, List.append_assoc,
        parseValue]
      rw [printText_append] at hrow ⊢
      change (parseMembers fuel _ >>= _) = _
      rw [hrow]
      change Except.ok (ofMembers _, rest) = _
      rw [ofMembers_of_nodup hkeys]

/-- A leaf that has a text: an integer within the limit of digits, or a number that is finite. -/
def WritableLeaf : Json → Prop
  | int n => n.natAbs < Numeral.bound
  | float x => x.isFinite = true
  | _ => True

theorem every_writableLeaf_sorted_iff {j : Json} :
    j.sorted.Every WritableLeaf ↔ j.Every WritableLeaf := by
  apply every_sorted_iff
  intro k
  cases k with
  | object members => rw [sorted_object]; exact Iff.rfl
  | array items => rw [sorted_array]; exact Iff.rfl
  | _ => exact Iff.rfl

/-- A document of writable leaves and distinct keys is read back from its text. -/
theorem readsBack {j : Json} (hleaf : j.Every WritableLeaf) (hkeys : j.Every DistinctKeys) :
    ReadsBack j := by
  induction j with
  | null => exact fun | fuel + 1, rest, _, _ => rfl
  | bool b => cases b <;> exact fun | fuel + 1, rest, _, _ => rfl
  | int n =>
      intro fuel rest hfuel hrest
      obtain ⟨fuel, rfl⟩ := Nat.exists_eq_add_one_of_ne_zero (Nat.ne_zero_of_lt hfuel)
      exact parseValue_of_parseLeaf (parseLeaf_printInt hleaf hrest) fuel
  | float x =>
      intro fuel rest hfuel hrest
      obtain ⟨fuel, rfl⟩ := Nat.exists_eq_add_one_of_ne_zero (Nat.ne_zero_of_lt hfuel)
      cases x with
      | finite negative m =>
          exact parseValue_of_parseLeaf (parseLeaf_number negative m hrest) fuel
      | infinite negative => cases hleaf
      | nan => cases hleaf
  | text t => exact ReadsBack.text t
  | array items ih =>
      obtain ⟨-, hleaves⟩ := every_array_iff.mp hleaf
      obtain ⟨-, hparts⟩ := every_array_iff.mp hkeys
      exact ReadsBack.array fun i hi => ih i hi (hleaves i hi) (hparts i hi)
  | object members ih =>
      obtain ⟨-, hleaves⟩ := every_object_iff.mp hleaf
      obtain ⟨hnodup, hparts⟩ := every_object_iff.mp hkeys
      exact ReadsBack.object hnodup fun m hm => ih m hm (hleaves m hm) (hparts m hm)

/-- Reading undoes printing. -/
theorem parse_print {j : Json} (hleaf : j.Every WritableLeaf) (hkeys : j.Every DistinctKeys) :
    parse j.print = .ok j := by
  have hread := readsBack hleaf hkeys (j.print.length + 1) [] (Nat.lt_succ_self _) trivial
  rw [List.append_nil] at hread
  rw [parse, skipBlank_of_parseValue hread, hread]
  rfl

/-- A printed object starts with two characters of ASCII. -/
theorem print_object (members : List (Text × Json)) :
    ∃ c ∈ ['"', '\x7d'], ∃ t, (object members).print = .scalar '\x7b' :: .scalar c :: t := by
  cases members with
  | nil => exact ⟨'\x7d', by simp, [], rfl⟩
  | cons m ms =>
      obtain ⟨k, v⟩ := m
      refine ⟨'"', by simp, k.flatMap escape ++ .scalar '"' :: .scalar ':' ::
        (v.print ++ printMembers ms), ?_⟩
      rw [print, printText_append]

/-- An object is read back from the bytes of its text. -/
theorem ofBytes_of_utf8? {members : List (Text × Json)} {bytes : List UInt8}
    (hleaf : (object members).Every WritableLeaf) (hkeys : (object members).Every DistinctKeys)
    (h : (object members).print.utf8? = some bytes) : ofBytes bytes = .ok (object members) := by
  obtain ⟨c, hc, t, hprint⟩ := print_object members
  have hascii : 0 < c.toNat ∧ c.toNat < 0x80 := by
    simp only [List.mem_cons, List.not_mem_nil, or_false] at hc
    rcases hc with rfl | rfl <;> decide
  have hback := Text.ofBytes?_of_utf8? (c := '\x7b') (by decide) hascii (hprint ▸ h)
  rw [ofBytes, hback]
  change parse (.scalar '\x7b' :: .scalar c :: t) = _
  rw [← hprint, parse_print hleaf hkeys]

end Json

end ManifestChain
