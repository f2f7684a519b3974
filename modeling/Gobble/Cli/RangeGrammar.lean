import Gobble.Cli.Main

/-!
# RangeGrammar — the language of `--forbidden-ranges`

`parseRanges` splits at commas, trims each item, splits it at dashes and hands the two halves to the
number parser of the standard library.  This file says which texts get through all four layers, in
words that mention none of them: items separated by commas, each of them two literals with a dash
between and blanks around.  Printing a list of ranges gives such a text, and parsing gives the list
back.
-/

namespace Gobble
namespace Cli

open Lib Sbpf

/-! ## The grammar -/

/-- Decimal digits, with a plus sign in front or not, that stand for a number of 64 bits. -/
def IsUsizeLiteral (text : List Char) (n : U64) : Prop :=
  ∃ digits, (text = digits ∨ text = '+' :: digits) ∧ digits ≠ [] ∧
    (∀ c ∈ digits, c.isDigit = true) ∧ Nat.ofDigitChars 10 digits 0 = n.toNat

/-- The item consists of the two ends of the range with a dash between them, and blanks around. -/
def Denotes (item : List Char) (r : AddrRange) : Prop :=
  ∃ before first second after, item = before ++ (first ++ '-' :: second) ++ after ∧
    (∀ c ∈ before, isWhitespace c = true) ∧ (∀ c ∈ after, isWhitespace c = true) ∧
    IsUsizeLiteral first r.start ∧ IsUsizeLiteral second r.stop

/-- The items of a text, of which there is at least one. -/
structure CommaSeparated (s : String) (items : List (List Char)) : Prop where
  nonempty : items ≠ []
  separated : ∀ item ∈ items, ',' ∉ item
  joined : s.toList = [','].intercalate items

/-! ## Printing -/

def printRange (r : AddrRange) : List Char :=
  Nat.toDigits 10 r.start.toNat ++ '-' :: Nat.toDigits 10 r.stop.toNat

/-- A range that is printed with blanks around it. -/
structure PaddedRange where
  before : List Char
  range : AddrRange
  after : List Char
  blank_before : ∀ c ∈ before, isWhitespace c = true
  blank_after : ∀ c ∈ after, isWhitespace c = true

def PaddedRange.text (p : PaddedRange) : List Char :=
  p.before ++ printRange p.range ++ p.after

def printRanges (ranges : List PaddedRange) : String :=
  String.ofList ([','].intercalate (ranges.map PaddedRange.text))

/-! ## Numbers -/

theorem digitValue_eq_some_iff {c : Char} {d : Nat} :
    digitValue c = some d ↔ c.isDigit = true ∧ d = c.toNat - 48 := by
  have hdigit : ('0' ≤ c ∧ c ≤ '9') ↔ c.isDigit = true := by
    simp [Char.isDigit, Char.le_def, UInt32.le_iff_toNat_le]
  unfold digitValue
  by_cases h : c.isDigit = true
  · rw [if_pos (hdigit.mpr h)]
    simp [h, eq_comm]
  · rw [if_neg (mt hdigit.mp h)]
    simp [h]

theorem le_ofDigitChars (digits : List Char) (n : Nat) : n ≤ Nat.ofDigitChars 10 digits n := by
  induction digits generalizing n with
  | nil => exact Nat.le_refl n
  | cons c rest ih =>
      rw [Nat.ofDigitChars_cons]
      exact Nat.le_trans (by omega) (ih _)

/-- The bound is checked after every digit, which comes to the same as checking it at the end. -/
theorem parseDigits_eq_some_iff {digits : List Char} {n m : Nat} (hn : n < 2 ^ 64) :
    parseDigits digits n = some m ↔
      (∀ c ∈ digits, c.isDigit = true) ∧ Nat.ofDigitChars 10 digits n = m ∧ m < 2 ^ 64 := by
  induction digits generalizing n with
  | nil =>
      rw [parseDigits, Option.some.injEq]
      constructor
      · rintro rfl
        exact ⟨by simp, rfl, hn⟩
      · rintro ⟨-, hm, -⟩
        exact hm
  | cons c rest ih =>
      rw [parseDigits, Nat.ofDigitChars_cons]
      cases hvalue : digitValue c with
      | none =>
          have hno : ¬ c.isDigit = true := by
            intro hdigit
            rw [digitValue_eq_some_iff.mpr ⟨hdigit, rfl⟩] at hvalue
            cases hvalue
          simp [hno]
      | some d =>
          obtain ⟨hdigit, rfl⟩ := digitValue_eq_some_iff.mp hvalue
          have hshift : n * 10 + (c.toNat - 48) = 10 * n + (c.toNat - '0'.toNat) := by
            have hzero : '0'.toNat = 48 := rfl
            omega
          simp only [Option.bind_eq_bind, Option.bind_some]
          rw [hshift]
          split
          · rename_i hlt
            rw [ih hlt]
            simp [hdigit]
          · rename_i hge
            constructor
            · intro h
              cases h
            · rintro ⟨-, rfl, hlt⟩
              exact absurd (Nat.lt_of_le_of_lt (le_ofDigitChars rest _) hlt) hge

theorem parseDigits_literal {digits : List Char} {n : U64} :
    (parseDigits digits 0).map (BitVec.ofNat 64) = some n ↔
      (∀ c ∈ digits, c.isDigit = true) ∧ Nat.ofDigitChars 10 digits 0 = n.toNat := by
  rw [Option.map_eq_some_iff]
  constructor
  · rintro ⟨m, hm, rfl⟩
    obtain ⟨hdigits, hvalue, hlt⟩ := (parseDigits_eq_some_iff (by decide)).mp hm
    refine ⟨hdigits, ?_⟩
    rw [hvalue, BitVec.toNat_ofNat, Nat.mod_eq_of_lt hlt]
  · rintro ⟨hdigits, hvalue⟩
    refine ⟨n.toNat, (parseDigits_eq_some_iff (by decide)).mpr ⟨hdigits, hvalue, n.isLt⟩, ?_⟩
    rw [BitVec.ofNat_toNat, BitVec.setWidth_eq]

theorem parseUsize_eq_some_iff {text : List Char} {n : U64} :
    parseUsize text = some n ↔ IsUsizeLiteral text n := by
  have hplus : '+'.isDigit = false := by decide
  unfold IsUsizeLiteral
  -- The cases of the parser: nothing, a sign alone, a sign and digits, digits.
  unfold parseUsize
  split
  · constructor
    · intro h
      cases h
    · rintro ⟨digits, rfl | h, hne, -⟩
      · exact absurd rfl hne
      · cases h
  · constructor
    · intro h
      cases h
    · rintro ⟨digits, rfl | h, hne, hdigits, -⟩
      · have := hdigits '+' List.mem_cons_self
        rw [hplus] at this
        cases this
      · cases h
        exact absurd rfl hne
  · rename_i digits hne
    rw [parseDigits_literal]
    constructor
    · rintro ⟨hdigits, hvalue⟩
      refine ⟨digits, .inr rfl, ?_, hdigits, hvalue⟩
      rintro rfl
      exact hne rfl
    · rintro ⟨digits', rfl | h, -, hdigits, hvalue⟩
      · have := hdigits '+' List.mem_cons_self
        rw [hplus] at this
        cases this
      · cases h
        exact ⟨hdigits, hvalue⟩
  · rename_i hnil hsign hsigned
    rw [parseDigits_literal]
    constructor
    · rintro ⟨hdigits, hvalue⟩
      exact ⟨text, .inl rfl, hnil, hdigits, hvalue⟩
    · rintro ⟨digits, rfl | hsign', -, hdigits, hvalue⟩
      · exact ⟨hdigits, hvalue⟩
      · exact absurd hsign' (hsigned digits)

/-! ## Characters of literals -/

/-- A literal consists of digits and signs. -/
theorem IsUsizeLiteral.chars {text : List Char} {n : U64} (h : IsUsizeLiteral text n) {c : Char}
    (hc : c ∈ text) : c.isDigit = true ∨ c = '+' := by
  obtain ⟨digits, rfl | rfl, -, hdigits, -⟩ := h
  · exact .inl (hdigits c hc)
  · rcases List.mem_cons.mp hc with rfl | hc
    · exact .inr rfl
    · exact .inl (hdigits c hc)

theorem IsUsizeLiteral.ne_nil {text : List Char} {n : U64} (h : IsUsizeLiteral text n) :
    text ≠ [] := by
  obtain ⟨digits, rfl | rfl, hne, -⟩ := h
  · exact hne
  · exact List.cons_ne_nil _ _

theorem isWhitespace_eq_false_of_isDigit {c : Char} (h : c.isDigit = true) :
    isWhitespace c = false := by
  have hrange : 48 ≤ c.toNat ∧ c.toNat ≤ 57 := by
    simpa [Char.isDigit, UInt32.le_iff_toNat_le] using h
  unfold isWhitespace
  simp only [Bool.or_eq_false_iff, Bool.and_eq_false_iff, decide_eq_false_iff_not, beq_eq_false_iff_ne]
  omega

theorem IsUsizeLiteral.not_blank {text : List Char} {n : U64} (h : IsUsizeLiteral text n) {c : Char}
    (hc : c ∈ text) : isWhitespace c = false := by
  rcases h.chars hc with hdigit | rfl
  · exact isWhitespace_eq_false_of_isDigit hdigit
  · decide

theorem IsUsizeLiteral.no_dash {text : List Char} {n : U64} (h : IsUsizeLiteral text n) :
    '-' ∉ text := by
  intro hc
  rcases h.chars hc with hdigit | heq
  · exact absurd hdigit (by decide)
  · exact absurd heq (by decide)

/-! ## Blanks -/

/-- Trimming removes the blanks around a text that neither starts nor ends with one. -/
theorem trim_padded {before core after : List Char} (hbefore : ∀ c ∈ before, isWhitespace c = true)
    (hafter : ∀ c ∈ after, isWhitespace c = true) (hcore : core ≠ [])
    (hhead : isWhitespace (core.head hcore) = false)
    (hlast : isWhitespace (core.getLast hcore) = false) :
    trim (before ++ core ++ after) = core := by
  have hleft : (before ++ core ++ after).dropWhile isWhitespace = core ++ after := by
    rw [List.append_assoc, List.dropWhile_append_of_pos hbefore]
    cases core with
    | nil => exact absurd rfl hcore
    | cons c rest =>
        refine List.dropWhile_cons_of_neg ?_
        rw [List.head_cons] at hhead
        rw [hhead]
        exact Bool.false_ne_true
  have hright : (core ++ after).rdropWhile isWhitespace = core := by
    have hreverse : ∀ c ∈ after.reverse, isWhitespace c = true := fun c hc =>
      hafter c (List.mem_reverse.mp hc)
    unfold List.rdropWhile
    rw [List.reverse_append, List.dropWhile_append_of_pos hreverse]
    refine List.rdropWhile_eq_self_iff.mpr fun _ => ?_
    rw [hlast]
    exact Bool.false_ne_true
  rw [trim, hleft, hright]

/-- What is trimmed off is blank. -/
theorem exists_padding (text : List Char) :
    ∃ before after, text = before ++ trim text ++ after ∧
      (∀ c ∈ before, isWhitespace c = true) ∧ ∀ c ∈ after, isWhitespace c = true := by
  refine ⟨text.takeWhile isWhitespace, (text.dropWhile isWhitespace).rtakeWhile isWhitespace,
    ?_, ?_, ?_⟩
  · rw [trim, List.append_assoc, List.rdropWhile_append_rtakeWhile, List.takeWhile_append_dropWhile]
  · intro c hc
    exact List.mem_takeWhile_imp hc
  · intro c hc
    exact List.mem_rtakeWhile_imp hc

/-! ## Splitting -/

theorem not_mem_of_mem_splitOn {sep : Char} {text part : List Char} (h : part ∈ text.splitOn sep) :
    sep ∉ part := by
  induction text generalizing part with
  | nil =>
      rw [List.splitOn_nil, List.mem_singleton] at h
      rw [h]
      exact List.not_mem_nil
  | cons c rest ih =>
      rw [List.splitOn_cons_eq_if_modifyHead] at h
      split at h
      · rcases List.mem_cons.mp h with rfl | h
        · exact List.not_mem_nil
        · exact ih h
      · rename_i hne
        -- The character joins the first part, of which there is one.
        cases hparts : rest.splitOn sep with
        | nil => exact absurd hparts (List.splitOn_ne_nil _ _)
        | cons first others =>
            rw [hparts, List.modifyHead_cons] at h
            rcases List.mem_cons.mp h with rfl | h
            · intro hmem
              rcases List.mem_cons.mp hmem with rfl | hmem
              · exact hne (beq_self_eq_true _)
              · exact ih (hparts ▸ List.mem_cons_self) hmem
            · exact ih (hparts ▸ List.mem_cons_of_mem _ h)

/-- The parts of a text are determined by two properties: none contains the separator, and together
they make the text. -/
theorem splitOn_eq_iff {sep : Char} {text : List Char} {parts : List (List Char)} :
    text.splitOn sep = parts ↔
      parts ≠ [] ∧ (∀ part ∈ parts, sep ∉ part) ∧ text = [sep].intercalate parts := by
  constructor
  · rintro rfl
    exact ⟨List.splitOn_ne_nil _ _, fun part => not_mem_of_mem_splitOn,
      (List.intercalate_splitOn sep).symm⟩
  · rintro ⟨hne, hparts, rfl⟩
    exact List.splitOn_intercalate sep hparts hne

theorem commaSeparated_iff {s : String} {items : List (List Char)} :
    CommaSeparated s items ↔ s.toList.splitOn ',' = items := by
  rw [splitOn_eq_iff]
  exact ⟨fun ⟨hne, hitems, hjoin⟩ => ⟨hne, hitems, hjoin⟩, fun ⟨hne, hitems, hjoin⟩ =>
    ⟨hne, hitems, hjoin⟩⟩

/-! ## One item -/

/-- Trimming leaves the literals and the dash. -/
theorem trim_literals {before first second after : List Char} {start stop : U64}
    (hbefore : ∀ c ∈ before, isWhitespace c = true) (hafter : ∀ c ∈ after, isWhitespace c = true)
    (hfirst : IsUsizeLiteral first start) (hsecond : IsUsizeLiteral second stop) :
    trim (before ++ (first ++ '-' :: second) ++ after) = first ++ '-' :: second := by
  have hne : first ++ '-' :: second ≠ [] := List.append_ne_nil_of_left_ne_nil hfirst.ne_nil _
  refine trim_padded hbefore hafter hne ?_ ?_
  · rw [List.head_append_of_ne_nil hfirst.ne_nil]
    exact hfirst.not_blank (List.head_mem _)
  · rw [List.getLast_append_of_ne_nil _ (List.cons_ne_nil _ _),
      List.getLast_cons hsecond.ne_nil]
    exact hsecond.not_blank (List.getLast_mem _)

/-- The two halves of a trimmed item, as the parser finds them. -/
theorem parseRange_of_pair {item first second : List Char}
    (h : (trim item).splitOn '-' = [first, second]) {r : AddrRange} :
    parseRange item = .ok r ↔ parseUsize first = some r.start ∧ parseUsize second = some r.stop := by
  unfold parseRange
  rw [h]
  dsimp only
  cases parseUsize first with
  | none => simp
  | some start =>
      cases parseUsize second with
      | none => simp
      | some stop =>
          rcases r with ⟨start', stop'⟩
          simp

theorem parseRange_eq_ok_iff {item : List Char} {r : AddrRange} :
    parseRange item = .ok r ↔ Denotes item r := by
  constructor
  · intro h
    obtain ⟨first, second, hpair⟩ : ∃ first second, (trim item).splitOn '-' = [first, second] := by
      unfold parseRange at h
      split at h
      · rename_i first second hpair
        exact ⟨first, second, hpair⟩
      · cases h
    obtain ⟨hfirst, hsecond⟩ := (parseRange_of_pair hpair).mp h
    obtain ⟨before, after, hitem, hbefore, hafter⟩ := exists_padding item
    obtain ⟨-, -, hjoin⟩ := splitOn_eq_iff.mp hpair
    refine ⟨before, first, second, after, ?_, hbefore, hafter,
      parseUsize_eq_some_iff.mp hfirst, parseUsize_eq_some_iff.mp hsecond⟩
    rw [hjoin] at hitem
    simpa using hitem
  · rintro ⟨before, first, second, after, rfl, hbefore, hafter, hfirst, hsecond⟩
    have hpair : (trim (before ++ (first ++ '-' :: second) ++ after)).splitOn '-' =
        [first, second] := by
      rw [trim_literals hbefore hafter hfirst hsecond, splitOn_eq_iff]
      refine ⟨List.cons_ne_nil _ _, ?_, by simp⟩
      intro part hpart
      rcases List.mem_pair.mp hpart with rfl | rfl
      · exact hfirst.no_dash
      · exact hsecond.no_dash
    exact (parseRange_of_pair hpair).mpr
      ⟨parseUsize_eq_some_iff.mpr hfirst, parseUsize_eq_some_iff.mpr hsecond⟩

/-! ## The whole text -/

/-- The items are parsed one by one. -/
theorem mapM_parseRange_iff {items : List (List Char)} {ranges : List AddrRange} :
    items.mapM parseRange = .ok ranges ↔ List.Forall₂ Denotes items ranges := by
  induction items generalizing ranges with
  | nil =>
      constructor
      · intro h
        cases h
        exact .nil
      · intro h
        cases h
        rfl
  | cons item items ih =>
      rw [mapM_cons_eq_ok]
      constructor
      · rintro ⟨r, rest, hr, hrest, rfl⟩
        exact .cons (parseRange_eq_ok_iff.mp hr) (ih.mp hrest)
      · rintro (_ | ⟨hr, hrest⟩)
        exact ⟨_, _, parseRange_eq_ok_iff.mpr hr, ih.mpr hrest, rfl⟩

theorem parseRanges_eq_ok_iff {s : String} {items : List (List Char)}
    (h : CommaSeparated s items) {ranges : List AddrRange} :
    parseRanges s = .ok ranges ↔ List.Forall₂ Denotes items ranges := by
  rw [parseRanges, commaSeparated_iff.mp h, mapM_parseRange_iff]

/-- A list of ranges that the items denote exists if every item denotes one. -/
theorem exists_forall₂_iff {items : List (List Char)} :
    (∃ ranges, List.Forall₂ Denotes items ranges) ↔ ∀ item ∈ items, ∃ r, Denotes item r := by
  induction items with
  | nil => simp
  | cons item items ih =>
      constructor
      · rintro ⟨ranges, _ | ⟨hr, hrest⟩⟩ item' hitem'
        rcases List.mem_cons.mp hitem' with rfl | hitem'
        · exact ⟨_, hr⟩
        · exact ih.mp ⟨_, hrest⟩ item' hitem'
      · intro hall
        obtain ⟨r, hr⟩ := hall item List.mem_cons_self
        obtain ⟨rest, hrest⟩ := ih.mpr fun item' hitem' =>
          hall item' (List.mem_cons_of_mem _ hitem')
        exact ⟨r :: rest, .cons hr hrest⟩

/-- An item without digits denotes no range. -/
theorem not_denotes_nil {r : AddrRange} : ¬ Denotes [] r := by
  rintro ⟨before, first, second, after, hitem, -⟩
  simp at hitem

/-- A text with an empty item is rejected. -/
theorem parseRanges_error_of_empty_item {s : String} (h : [] ∈ s.toList.splitOn ',') :
    ∃ err, parseRanges s = .error err := by
  cases hparse : parseRanges s with
  | error err => exact ⟨err, rfl⟩
  | ok ranges =>
      have hforall := (parseRanges_eq_ok_iff (commaSeparated_iff.mpr rfl)).mp hparse
      obtain ⟨r, hr⟩ := exists_forall₂_iff.mp ⟨ranges, hforall⟩ [] h
      exact absurd hr not_denotes_nil

/-! ## Printing and parsing -/

theorem isUsizeLiteral_toDigits (n : U64) : IsUsizeLiteral (Nat.toDigits 10 n.toNat) n := by
  refine ⟨_, .inl rfl, Nat.toDigits_ne_nil, ?_, Nat.ofDigitChars_toDigits (by decide) (by decide)⟩
  intro c hc
  exact Nat.isDigit_of_mem_toDigits (by decide) (by decide) hc

theorem PaddedRange.denotes (p : PaddedRange) : Denotes p.text p.range :=
  ⟨p.before, _, _, p.after, rfl, p.blank_before, p.blank_after, isUsizeLiteral_toDigits _,
    isUsizeLiteral_toDigits _⟩

/-- No item contains a comma: neither digits and dashes nor blanks are commas. -/
theorem Denotes.no_comma {item : List Char} {r : AddrRange} (h : Denotes item r) : ',' ∉ item := by
  obtain ⟨before, first, second, after, rfl, hbefore, hafter, hfirst, hsecond⟩ := h
  have hliteral : ∀ {text : List Char} {n : U64}, IsUsizeLiteral text n → ',' ∉ text := by
    intro text n htext hc
    rcases htext.chars hc with hdigit | heq
    · exact absurd hdigit (by decide)
    · exact absurd heq (by decide)
  have hblank : isWhitespace ',' = false := by decide
  intro hc
  simp only [List.mem_append, List.mem_cons] at hc
  rcases hc with (hc | hc | heq | hc) | hc
  · rw [hbefore _ hc] at hblank
    cases hblank
  · exact hliteral hfirst hc
  · exact absurd heq (by decide)
  · exact hliteral hsecond hc
  · rw [hafter _ hc] at hblank
    cases hblank

theorem printRanges_separated {ranges : List PaddedRange} (hne : ranges ≠ []) :
    CommaSeparated (printRanges ranges) (ranges.map PaddedRange.text) where
  nonempty := by simpa using hne
  separated := by
    intro item hitem
    obtain ⟨p, -, rfl⟩ := List.mem_map.mp hitem
    exact p.denotes.no_comma
  joined := String.toList_ofList

theorem parseRanges_printRanges {ranges : List PaddedRange} (hne : ranges ≠ []) :
    parseRanges (printRanges ranges) = .ok (ranges.map PaddedRange.range) := by
  rw [parseRanges_eq_ok_iff (printRanges_separated hne), List.forall₂_map_left_iff,
    List.forall₂_map_right_iff]
  exact List.forall₂_same.mpr fun p _ => p.denotes

/-- **The parser accepts exactly its grammar, and inverts printing.**  Every text has one division into
items.  It is accepted if and only if every item denotes a range, and then the result is the list of
these ranges.  What is printed is accepted with the list that was printed, whatever blanks stand
around the items.  An empty text, an empty item and a trailing comma are errors. -/
theorem parseRanges_accepts_its_grammar :
    (∀ s : String, ∃ items, CommaSeparated s items ∧
      (∀ items', CommaSeparated s items' → items' = items) ∧
      ((∃ ranges, parseRanges s = .ok ranges) ↔ ∀ item ∈ items, ∃ r, Denotes item r) ∧
      ∀ ranges, parseRanges s = .ok ranges ↔ List.Forall₂ Denotes items ranges) ∧
    (∀ ranges : List PaddedRange, ranges ≠ [] →
      parseRanges (printRanges ranges) = .ok (ranges.map PaddedRange.range)) ∧
    (∃ err, parseRanges "" = .error err) ∧
    (∀ s : String, ∃ err, parseRanges (s ++ ",") = .error err) ∧
    ∀ s items, CommaSeparated s items → [] ∈ items → ∃ err, parseRanges s = .error err := by
  refine ⟨?_, fun ranges => parseRanges_printRanges, ?_, ?_, ?_⟩
  · intro s
    have hsplit : CommaSeparated s (s.toList.splitOn ',') := commaSeparated_iff.mpr rfl
    refine ⟨_, hsplit, ?_, ?_, fun ranges => parseRanges_eq_ok_iff hsplit⟩
    · intro items' hitems'
      exact (commaSeparated_iff.mp hitems').symm
    · rw [← exists_forall₂_iff]
      exact exists_congr fun ranges => parseRanges_eq_ok_iff hsplit
  · exact parseRanges_error_of_empty_item (List.mem_singleton_self _)
  · intro s
    refine parseRanges_error_of_empty_item ?_
    have htext : (s ++ ",").toList = s.toList ++ ',' :: [] := by simp
    rw [htext, List.splitOn_append_cons_self, List.splitOn_nil]
    exact List.mem_append_right _ (List.mem_singleton_self _)
  · intro s items hitems hempty
    rw [← commaSeparated_iff.mp hitems] at hempty
    exact parseRanges_error_of_empty_item hempty

/-- Blanks around the items and plus signs are accepted. -/
example : parseRanges " 8-16,\t+20-024 " = .ok [⟨8, 16⟩, ⟨20, 24⟩] := by
  rfl

end Cli
end Gobble
