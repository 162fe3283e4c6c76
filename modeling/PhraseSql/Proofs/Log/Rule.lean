import Mathlib.Data.List.Nodup
import PhraseSql.Proofs.Log.Governing
import PhraseSql.Proofs.Text.Trim
import PhraseSql.Proofs.Text.Cut

namespace PhraseSql.Log

open Text (size)

def Threshold.name : Threshold → List Char
  | none => ['o', 'f', 'f']
  | some .error => ['e', 'r', 'r', 'o', 'r']
  | some .warn => ['w', 'a', 'r', 'n']
  | some .info => ['i', 'n', 'f', 'o']
  | some .debug => ['d', 'e', 'b', 'u', 'g']
  | some .trace => ['t', 'r', 'a', 'c', 'e']

def isTargetChar (c : Char) : Bool := c.isAlphanum || c = '_' || c = ':'

structure IsTarget (target : List Char) : Prop where
  ne_nil : target ≠ []
  chars : target.all isTargetChar = true

structure IsOtherWord (word : List Char) : Prop where
  ne_nil : word ≠ []
  letters : word.all Text.isAlphabetic = true
  other : ∀ threshold : Threshold, lower word ≠ threshold.name

structure Rule where
  target : List Char
  threshold : Threshold
  isTarget : IsTarget target

def Rule.item (r : Rule) : List Char := r.target ++ '=' :: r.threshold.name

def Rule.directive (r : Rule) : Directive := ⟨some r.target, none, none, r.threshold⟩

def joined (items : List (List Char)) : String := String.ofList ([','].intercalate items)

structure IsTargetMark (c : Char) : Prop where
  starts : startsName c = true
  ne_equals : c ≠ '='
  ne_bracket : c ≠ '['
  ne_comma : c ≠ ','
  not_blank : Text.isBlank c = false

theorem toNat_lt_of_isTargetChar {c : Char} (h : isTargetChar c = true) : c.toNat < 128 := by
  unfold isTargetChar Char.isAlphanum Char.isAlpha Char.isUpper Char.isLower Char.isDigit at h
  simp only [Bool.or_eq_true, Bool.and_eq_true, decide_eq_true_eq, ge_iff_le,
    UInt32.le_iff_toNat_le] at h
  change c.val.toNat < 128
  rcases h with (((⟨-, h⟩ | ⟨-, h⟩) | ⟨-, h⟩) | rfl) | rfl
  · exact Nat.lt_of_le_of_lt h (by decide)
  · exact Nat.lt_of_le_of_lt h (by decide)
  · exact Nat.lt_of_le_of_lt h (by decide)
  · decide
  · decide

theorem isTargetMark_of_isTargetChar {c : Char} (h : isTargetChar c = true) : IsTargetMark c := by
  have hall : ∀ n < 128, isTargetChar (Char.ofNat n) = true → startsName (Char.ofNat n) = true ∧
      Char.ofNat n ≠ '=' ∧ Char.ofNat n ≠ '[' ∧ Char.ofNat n ≠ ',' ∧
      Text.isBlank (Char.ofNat n) = false := by
    decide +kernel
  have hc := hall c.toNat (toNat_lt_of_isTargetChar h)
  rw [Char.ofNat_toNat] at hc
  obtain ⟨hs, he, hb, hm, hn⟩ := hc h
  exact ⟨hs, he, hb, hm, hn⟩

theorem parse?_name (threshold : Threshold) : Threshold.parse? threshold.name = some threshold := by
  rcases threshold with _ | _ | _ | _ | _ | _ <;> decide +kernel

structure IsWordMark (c : Char) : Prop where
  not_blank : Text.isBlank c = false
  not_digit : c.isDigit = false
  ne_plus : c ≠ '+'
  ne_comma : c ≠ ','

theorem isWordMark_of_isAlphabetic {c : Char} (h : Text.isAlphabetic c = true) : IsWordMark c := by
  -- the blanks and digits are few, and none of them is a letter
  have hb : ∀ n ∈ [9, 10, 11, 12, 13, 0x20, 0x85, 0xA0, 0x1680, 0x2000, 0x2001, 0x2002, 0x2003,
      0x2004, 0x2005, 0x2006, 0x2007, 0x2008, 0x2009, 0x200A, 0x2028, 0x2029, 0x202F, 0x205F,
      0x3000], Text.isAlphabetic (Char.ofNat n) = false := by
    decide +kernel
  have hd : ∀ n ∈ [48, 49, 50, 51, 52, 53, 54, 55, 56, 57],
      Text.isAlphabetic (Char.ofNat n) = false := by
    decide +kernel
  have hn (ns : List Nat) (hs : ∀ n ∈ ns, Text.isAlphabetic (Char.ofNat n) = false) :
      c.toNat ∉ ns := by
    intro hm
    have hc := hs c.toNat hm
    rw [Char.ofNat_toNat, h] at hc
    cases hc
  have hb := hn _ hb
  have hd := hn _ hd
  refine ⟨?_, ?_, ?_, ?_⟩
  · apply Bool.eq_false_iff.mpr
    intro hc
    simp only [Text.isBlank, Bool.or_eq_true, Bool.and_eq_true, decide_eq_true_eq] at hc
    simp only [List.mem_cons, List.not_mem_nil, or_false, not_or] at hb
    omega
  · apply Bool.eq_false_iff.mpr
    intro hc
    simp only [Char.isDigit, Bool.and_eq_true, decide_eq_true_eq, ge_iff_le,
      UInt32.le_iff_toNat_le] at hc
    change 48 ≤ c.toNat ∧ c.toNat ≤ 57 at hc
    simp only [List.mem_cons, List.not_mem_nil, or_false, not_or] at hd
    omega
  · rintro rfl
    exact absurd h (by decide +kernel)
  · rintro rfl
    exact absurd h (by decide +kernel)

theorem ofName?_other {word : List Char} (h : ∀ threshold : Threshold, lower word ≠ threshold.name) :
    Threshold.ofName? word = none := by
  have hn (threshold : Threshold) : String.ofList (lower word) ≠ String.ofList threshold.name := by
    intro he
    exact h threshold (String.ofList_inj.mp he)
  have off : String.ofList (lower word) ≠ "off" := hn none
  have error : String.ofList (lower word) ≠ "error" := hn (some .error)
  have warn : String.ofList (lower word) ≠ "warn" := hn (some .warn)
  have info : String.ofList (lower word) ≠ "info" := hn (some .info)
  have debug : String.ofList (lower word) ≠ "debug" := hn (some .debug)
  have trace : String.ofList (lower word) ≠ "trace" := hn (some .trace)
  simp only [Threshold.ofName?, if_neg off, if_neg error, if_neg warn, if_neg info, if_neg debug,
    if_neg trace]

theorem IsOtherWord.parse?_eq_none {word : List Char} (h : IsOtherWord word) :
    Threshold.parse? word = none := by
  obtain ⟨c, cs, rfl⟩ := List.exists_cons_of_ne_nil h.ne_nil
  have hc := isWordMark_of_isAlphabetic (List.all_eq_true.mp h.letters c List.mem_cons_self)
  have hw : wholeNumber? (c :: cs) = none := by simp [wholeNumber?, hc.not_digit]
  have ho := ofName?_other h.other
  unfold Threshold.parse?
  split
  · rename_i hs
    exact absurd (List.cons.inj hs).1 hc.ne_plus
  · simp only [hw]
    exact ho

section Parts

variable (front rest : List Char)

theorem part_append : part (front ++ rest) 0 (size front) = .ok front := by
  have hz : Text.splitBytes? 0 (front ++ rest) = some ([], front ++ rest) :=
    Text.splitBytes?_append [] (front ++ rest)
  simp only [part, Text.cut?, hz, Nat.sub_zero, Text.splitBytes?_append, Option.bind_eq_bind,
    Option.bind_some]

theorem lastPart_append : lastPart (front ++ rest) (size front) = .ok rest := by
  simp only [lastPart, Text.cutFrom?, Text.splitBytes?_append, Option.map_some]

end Parts

section Scan

variable {item : List Char} {place start : Nat} {d : Directive}

theorem scan_levelOrTarget {text : List Char} (h : ∀ c ∈ text, IsTargetMark c) (rest : List Char) :
    Directive.scan item place d (.levelOrTarget start) (text ++ rest) =
      Directive.scan item (place + size text) d (.levelOrTarget start) rest := by
  induction text generalizing place with
  | nil => rfl
  | cons c text ih =>
    obtain ⟨hc, ht⟩ := List.forall_mem_cons.mp h
    have hs : d.step item place c (.levelOrTarget start) = .ok (d, .levelOrTarget start) := by
      simp only [Directive.step, if_neg hc.ne_equals, if_neg hc.ne_bracket]
    rw [List.cons_append, Directive.scan, hs, Text.size_cons, ← Nat.add_assoc]
    exact ih ht

theorem scan_start {target : List Char} (h : IsTarget target) (rest : List Char) :
    Directive.scan item 0 d .start (target ++ rest) =
      Directive.scan item (size target) d (.levelOrTarget 0) rest := by
  have hm (c : Char) (hc : c ∈ target) : IsTargetMark c :=
    isTargetMark_of_isTargetChar (List.all_eq_true.mp h.chars c hc)
  obtain ⟨c, cs, rfl⟩ := List.exists_cons_of_ne_nil h.ne_nil
  obtain ⟨hc, hcs⟩ := List.forall_mem_cons.mp hm
  have hs : d.step item 0 c .start = .ok (d, .levelOrTarget 0) := by
    simp only [Directive.step, if_neg hc.ne_bracket, if_pos hc.starts]
  have hz : size (c :: cs) = 0 + c.utf8Size + size cs := by rw [Text.size_cons, Nat.zero_add]
  rw [List.cons_append, Directive.scan, hs, hz]
  exact scan_levelOrTarget hcs rest

theorem scan_level (rest : List Char) :
    Directive.scan item place d (.level start) rest = d.conclude item (.level start) := by
  induction rest generalizing place with
  | nil => rfl
  | cons c rest ih =>
    rw [Directive.scan]
    exact ih

theorem scan_equals {target word : List Char} (hw : word ≠ []) :
    Directive.scan (target ++ '=' :: word) (size target) d (.levelOrTarget 0) ('=' :: word) =
      match Threshold.parse? word with
      | some threshold => .ok { d with target := some target, threshold := threshold }
      | none => .error .malformed := by
  have hs : d.step (target ++ '=' :: word) (size target) '=' (.levelOrTarget 0) =
      .ok ({ d with target := some target }, .level (size target + 1)) := by
    simp only [Directive.step, if_true, part_append]
    rfl
  have hl : lastPart (target ++ '=' :: word) (size target + 1) = .ok word := by
    have hl := lastPart_append (target ++ ['=']) word
    rwa [List.append_assoc, Text.size_append] at hl
  rw [Directive.scan, hs]
  refine (scan_level word).trans ?_
  cases hp : Threshold.parse? word with
  | none => simp only [Directive.conclude, hl, bind, Except.bind, if_neg hw, hp]
  | some threshold => simp only [Directive.conclude, hl, bind, Except.bind, if_neg hw, hp]

end Scan

theorem trim_item {target word : List Char} (ht : IsTarget target)
    (hw : ∀ c ∈ word, Text.isBlank c = false) :
    Text.trim (target ++ '=' :: word) = target ++ '=' :: word := by
  have ha : Text.AllBlank [] := List.forall_mem_nil _
  have hc : ∀ c ∈ target ++ '=' :: word, Text.isBlank c = false := by
    intro c hc
    rcases List.mem_append.mp hc with hc | hc
    · exact (isTargetMark_of_isTargetChar (List.all_eq_true.mp ht.chars c hc)).not_blank
    · rcases List.mem_cons.mp hc with rfl | hc
      · decide
      · exact hw c hc
  have hn := Text.trim_append ha ha hc
  rwa [List.nil_append, List.append_nil] at hn

theorem parse_item {target word : List Char} (ht : IsTarget target) (hw : word ≠ [])
    (hb : ∀ c ∈ word, Text.isBlank c = false) :
    Directive.parse (target ++ '=' :: word) = match Threshold.parse? word with
      | some threshold => .ok ⟨some target, none, none, threshold⟩
      | none => .error .malformed := by
  rw [Directive.parse, trim_item ht hb, scan_start ht, scan_equals hw]

theorem parse_item_rule (r : Rule) : Directive.parse r.item = .ok r.directive := by
  have hw : r.threshold.name ≠ [] := by
    rcases r.threshold with _ | _ | _ | _ | _ | _ <;> decide
  have hb : r.threshold.name.all (!Text.isBlank ·) = true := by
    rcases r.threshold with _ | _ | _ | _ | _ | _ <;> decide
  have hb (c : Char) (hc : c ∈ r.threshold.name) : Text.isBlank c = false := by
    simpa using List.all_eq_true.mp hb c hc
  rw [Rule.item, parse_item r.isTarget hw hb, parse?_name]
  rfl

theorem parse_item_other {target word : List Char} (ht : IsTarget target) (hw : IsOtherWord word) :
    Directive.parse (target ++ '=' :: word) = .error .malformed := by
  have hb (c : Char) (hc : c ∈ word) : Text.isBlank c = false :=
    (isWordMark_of_isAlphabetic (List.all_eq_true.mp hw.letters c hc)).not_blank
  rw [parse_item ht hw.ne_nil hb, hw.parse?_eq_none]

theorem mapM_eq_ok {α β ε : Type} {f : α → Except ε β} {g : α → β} {xs : List α}
    (h : ∀ x ∈ xs, f x = .ok (g x)) : xs.mapM f = .ok (xs.map g) := by
  induction xs with
  | nil => rfl
  | cons x xs ih =>
    obtain ⟨hx, hxs⟩ := List.forall_mem_cons.mp h
    rw [List.mapM_cons, hx, ih hxs]
    rfl

structure IsItem (item : List Char) : Prop where
  ne_nil : item ≠ []
  no_comma : ',' ∉ item

theorem parse_joined {items : List (List Char)} (h : ∀ item ∈ items, IsItem item) :
    Filter.parse (joined items) = Filter.ofDirectives <$> items.mapM Directive.parse := by
  have hs : ((joined items).toList.splitOn ',').filter (· ≠ []) = items := by
    rw [joined, String.toList_ofList]
    by_cases hn : items = []
    · rw [hn]
      rfl
    · rw [List.splitOn_intercalate ',' (fun item hi => (h item hi).no_comma) hn]
      apply List.filter_eq_self.mpr
      intro item hi
      exact decide_eq_true (h item hi).ne_nil
  rw [Filter.parse, hs]

theorem isItem_append {target word : List Char} (ht : IsTarget target) (hw : ',' ∉ word) :
    IsItem (target ++ '=' :: word) where
  ne_nil := List.append_ne_nil_of_left_ne_nil ht.ne_nil _
  no_comma := by
    intro hm
    rcases List.mem_append.mp hm with hm | hm
    · exact (isTargetMark_of_isTargetChar (List.all_eq_true.mp ht.chars ',' hm)).ne_comma rfl
    · rcases List.mem_cons.mp hm with hm | hm
      · cases hm
      · exact hw hm

theorem Rule.isItem (r : Rule) : IsItem r.item := by
  apply isItem_append r.isTarget
  rcases r.threshold with _ | _ | _ | _ | _ | _ <;> decide

theorem isItem_of_mem_rules {rules : List Rule} : ∀ item ∈ rules.map Rule.item, IsItem item := by
  intro item hi
  obtain ⟨r, -, rfl⟩ := List.mem_map.mp hi
  exact r.isItem

theorem mapM_rules (rules : List Rule) :
    (rules.map Rule.item).mapM Directive.parse = .ok (rules.map Rule.directive) := by
  rw [List.mapM_map]
  exact mapM_eq_ok fun r _ => parse_item_rule r

theorem parse_rules (rules : List Rule) :
    Filter.parse (joined (rules.map Rule.item)) =
      .ok (Filter.ofDirectives (rules.map Rule.directive)) := by
  rw [parse_joined isItem_of_mem_rules, mapM_rules]
  rfl

theorem parse_other (front back : List Rule) {target word : List Char} (ht : IsTarget target)
    (hw : IsOtherWord word) :
    Filter.parse (joined (front.map Rule.item ++ (target ++ '=' :: word) :: back.map Rule.item)) =
      .error .malformed := by
  have hc : ',' ∉ word := by
    intro hm
    exact (isWordMark_of_isAlphabetic (List.all_eq_true.mp hw.letters ',' hm)).ne_comma rfl
  have hi : ∀ item ∈ front.map Rule.item ++ (target ++ '=' :: word) :: back.map Rule.item,
      IsItem item := by
    rw [List.forall_mem_append, List.forall_mem_cons]
    exact ⟨isItem_of_mem_rules, isItem_append ht hc, isItem_of_mem_rules⟩
  rw [parse_joined hi, List.mapM_append, mapM_rules, List.mapM_cons, parse_item_other ht hw]
  rfl

structure Rule.Governs (rules : List Rule) (e : Event) (r : Rule) : Prop where
  mem : r ∈ rules
  begins : r.target <+: e.target.toList
  longest : ∀ r' ∈ rules, r'.target <+: e.target.toList → r'.target.length ≤ r.target.length

def Prints (rules : List Rule) (e : Event) : Prop :=
  ∃ r, Rule.Governs rules e r ∧ r.threshold.admits e.level = true

theorem Rule.concerns_iff {r : Rule} {e : Event} :
    r.directive.concerns e = true ↔ r.target <+: e.target.toList := by
  simp [Rule.directive, Directive.concerns, Directive.isLasting]

theorem Rule.exactness_le_iff {r r' : Rule} :
    r.directive.exactness ≤ r'.directive.exactness ↔ r.target.length ≤ r'.target.length := by
  have he (r : Rule) : r.directive.exactness = 2 * (r.target.length + 1) := rfl
  rw [he, he]
  omega

theorem Rule.eq_of_prefix {rules : List Rule} (hd : (rules.map Rule.target).Nodup) {r r' : Rule}
    (hr : r ∈ rules) (hr' : r' ∈ rules) {text : List Char} (hp : r.target <+: text)
    (hp' : r'.target <+: text) (hl : r.target.length = r'.target.length) : r = r' := by
  apply List.inj_on_of_nodup_map hd hr hr'
  exact (List.prefix_of_prefix_length_le hp hp' (Nat.le_of_eq hl)).eq_of_length hl

theorem isDecided_rules {rules : List Rule} (hd : (rules.map Rule.target).Nodup) (e : Event) :
    Filter.IsDecided ⟨rules.map Rule.directive⟩ e := by
  intro d hm d' hm' hc hc' he
  obtain ⟨r, hr, rfl⟩ := List.mem_map.mp hm
  obtain ⟨r', hr', rfl⟩ := List.mem_map.mp hm'
  have hl : r.target.length = r'.target.length := by
    apply Nat.le_antisymm
    · exact Rule.exactness_le_iff.mp (Nat.le_of_eq he)
    · exact Rule.exactness_le_iff.mp (Nat.le_of_eq he.symm)
  rw [Rule.eq_of_prefix hd hr hr' (Rule.concerns_iff.mp hc) (Rule.concerns_iff.mp hc') hl]

theorem admits_iff_prints {rules : List Rule} (hd : (rules.map Rule.target).Nodup) {e : Event} :
    Filter.admits ⟨rules.map Rule.directive⟩ e = true ↔ Prints rules e := by
  rw [Filter.admits_iff (isDecided_rules hd e)]
  constructor
  · rintro ⟨d, hm, hc, hmost, ha⟩
    obtain ⟨r, hr, rfl⟩ := List.mem_map.mp hm
    refine ⟨r, ⟨hr, Rule.concerns_iff.mp hc, ?_⟩, ha⟩
    intro r' hr' hb
    apply Rule.exactness_le_iff.mp
    exact hmost r'.directive (List.mem_map_of_mem hr') (Rule.concerns_iff.mpr hb)
  · rintro ⟨r, ⟨hr, hb, hlong⟩, ha⟩
    refine ⟨r.directive, List.mem_map_of_mem hr, Rule.concerns_iff.mpr hb, ?_, ha⟩
    intro d hm hc
    obtain ⟨r', hr', rfl⟩ := List.mem_map.mp hm
    exact Rule.exactness_le_iff.mpr (hlong r' hr' (Rule.concerns_iff.mp hc))

theorem admits_ofDirectives_nil {e : Event} :
    (Filter.ofDirectives []).admits e = true ↔ e.level = .error := by
  have ha : (Filter.ofDirectives []).admits e = Threshold.admits (some .error) e.level := by
    simp [Filter.ofDirectives, Filter.admits, Filter.governing?, Directive.concerns,
      Directive.isLasting]
  rw [ha]
  cases e.level <;> decide

theorem admits_rules_iff {rules : List Rule} (hd : (rules.map Rule.target).Nodup) {e : Event} :
    (Filter.ofDirectives (rules.map Rule.directive)).admits e = true ↔
      Prints rules e ∨ (rules = [] ∧ e.level = .error) := by
  cases rules with
  | nil =>
    have hn : ¬ Prints [] e := by
      rintro ⟨r, hr, -⟩
      cases hr.mem
    simp only [List.map_nil, admits_ofDirectives_nil, hn, true_and, false_or]
  | cons r rules =>
    have hf : Filter.ofDirectives ((r :: rules).map Rule.directive) =
        ⟨(r :: rules).map Rule.directive⟩ := rfl
    rw [hf, admits_iff_prints hd]
    simp

theorem Prints.perm {rules rules' : List Rule} (h : rules'.Perm rules) {e : Event} :
    Prints rules' e ↔ Prints rules e := by
  have hg (r : Rule) : Rule.Governs rules' e r ↔ Rule.Governs rules e r := by
    constructor
    · rintro ⟨hm, hb, hl⟩
      exact ⟨h.mem_iff.mp hm, hb, fun r' hr' => hl r' (h.mem_iff.mpr hr')⟩
    · rintro ⟨hm, hb, hl⟩
      exact ⟨h.mem_iff.mpr hm, hb, fun r' hr' => hl r' (h.mem_iff.mp hr')⟩
  simp only [Prints, hg]

end PhraseSql.Log
