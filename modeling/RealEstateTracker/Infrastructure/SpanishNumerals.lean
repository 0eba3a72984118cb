import RealEstateTracker.Foundation.Division
import RealEstateTracker.Infrastructure.NumericTokens

/-!
# Spanish numerals

A numeral has an integer part, plain or in groups of three after points, and
decimals after a comma.  With words before it and a unit behind it the parsers
read exactly the number that it denotes.
-/

namespace RealEstateTracker.Infrastructure

open Foundation Domain

/-! ## Numerals -/

structure SpanishNumeral where
  lead : Text
  groups : List Text
  decimals : Option Text
  leadDigits : ∀ c ∈ lead, Text.isDigit c = true
  groupDigits : ∀ g ∈ groups, ∀ c ∈ g, Text.isDigit c = true
  decimalDigits : ∀ ds ∈ decimals, ∀ c ∈ ds, Text.isDigit c = true
  leads : lead ≠ []
  short : groups ≠ [] → lead.length ≤ 3
  triples : ∀ g ∈ groups, g.length = 3

namespace SpanishNumeral

variable (n : SpanishNumeral)

def integerText : Text := n.lead ++ n.groups.flatMap ('.' :: ·)

def text : Text :=
  match n.decimals with
  | none => n.integerText
  | some ds => n.integerText ++ ',' :: ds

def whole : Text := n.lead ++ n.groups.flatten

def fraction : Text := n.decimals.getD []

def value : ℚ :=
  Text.digitsValue n.whole + Text.digitsValue n.fraction / 10 ^ n.fraction.length

/-- The number as a `Decimal` with the decimals that are written. -/
def amount : Decimal := numberFrom false n.whole n.fraction

theorem exact_amount : n.amount.exact = some n.value := by
  rw [amount, numberFrom, Decimal.exact, Decimal.value, Text.digitsValue_append, value]
  have hpos : (0 : ℚ) < 10 ^ n.fraction.length := by positivity
  rw [if_neg (by simp), zpow_neg, zpow_natCast]
  push_cast
  field_simp

theorem mem_integerText {c : Char} (h : c ∈ n.integerText) :
    Text.isDigit c = true ∨ c = '.' := by
  rcases List.mem_append.mp h with h | h
  · exact .inl (n.leadDigits c h)
  · obtain ⟨g, hg, hc⟩ := List.mem_flatMap.mp h
    rcases List.mem_cons.mp hc with rfl | hc
    · exact .inr rfl
    · exact .inl (n.groupDigits g hg c hc)

theorem comma_not_mem_integerText : ',' ∉ n.integerText := fun h =>
  (n.mem_integerText h).elim (by decide) (by decide)

theorem digitsOf_of_digits {t : Text} (h : ∀ c ∈ t, Text.isDigit c = true) :
    digitsOf t = t :=
  List.filter_eq_self.mpr fun c hc =>
    decide_eq_true (ne_of_isDigit (h c hc) (by decide))

theorem digitsOf_append (t t' : Text) : digitsOf (t ++ t') = digitsOf t ++ digitsOf t' :=
  List.filter_append ..

theorem digitsOf_groups {groups : List Text}
    (h : ∀ g ∈ groups, ∀ c ∈ g, Text.isDigit c = true) :
    digitsOf (groups.flatMap ('.' :: ·)) = groups.flatten := by
  induction groups with
  | nil => rfl
  | cons g groups ih =>
      obtain ⟨hg, hgroups⟩ := List.forall_mem_cons.mp h
      rw [List.flatMap_cons, List.flatten_cons, digitsOf_append, ih hgroups]
      congr 1
      exact digitsOf_of_digits hg

theorem digitsOf_integerText : digitsOf n.integerText = n.whole := by
  rw [integerText, digitsOf_append, digitsOf_of_digits n.leadDigits,
    digitsOf_groups n.groupDigits, whole]

theorem isNumeric_of_mem_text {c : Char} (h : c ∈ n.text) : isNumeric c = true := by
  have hinteger : ∀ d ∈ n.integerText, isNumeric d = true := by
    intro d hd
    rcases n.mem_integerText hd with hdigit | rfl
    · simp [isNumeric, hdigit]
    · decide
  unfold text at h
  cases hds : n.decimals with
  | none =>
      rw [hds] at h
      exact hinteger c h
  | some ds =>
      rw [hds] at h
      rcases List.mem_append.mp h with h | h
      · exact hinteger c h
      · rcases List.mem_cons.mp h with rfl | h
        · decide
        · simp [isNumeric, n.decimalDigits ds hds c h]

theorem wholeOf_text : wholeOf n.text = n.whole := by
  rw [wholeOf, ← digitsOf_integerText]
  unfold text
  cases n.decimals with
  | none => rw [Text.partition_of_not_mem n.comma_not_mem_integerText]
  | some ds => rw [Text.partition_append n.comma_not_mem_integerText]

theorem fractionOf_text : fractionOf n.text = n.fraction := by
  unfold fractionOf text fraction
  cases hds : n.decimals with
  | none =>
      rw [Text.partition_of_not_mem n.comma_not_mem_integerText]
      rfl
  | some ds =>
      rw [Text.partition_append n.comma_not_mem_integerText]
      exact digitsOf_of_digits (n.decimalDigits ds hds)

theorem count_comma_text : n.text.count ',' ≤ 1 := by
  have hnone := List.count_eq_zero_of_not_mem n.comma_not_mem_integerText
  unfold text
  cases hds : n.decimals with
  | none => exact hnone.trans_le zero_le_one
  | some ds =>
      have hds' : ',' ∉ ds := fun hmem =>
        absurd (n.decimalDigits ds hds ',' hmem) (by decide)
      rw [List.count_append, hnone, List.count_cons_self,
        List.count_eq_zero_of_not_mem hds']

theorem whole_ne_nil : n.whole ≠ [] := List.append_ne_nil_of_left_ne_nil n.leads _

theorem ofText_text (hrange : n.amount.InRange) :
    Decimal.ofText (pointed n.text) = some n.amount := by
  have hread := ofText_pointed (fun c => n.isNumeric_of_mem_text) false
  rw [Decimal.signText, if_neg (by simp), List.nil_append] at hread
  rw [hread, if_pos n.count_comma_text, n.wholeOf_text, n.fractionOf_text, read,
    if_neg (List.append_ne_nil_of_left_ne_nil n.whole_ne_nil _)]
  exact if_pos hrange

end SpanishNumeral

/-! ## A numeral in a text -/

/-- A letter or a space, or any other character that numbers and units do not use. -/
def IsWordChar (c : Char) : Prop :=
  isNumeric c = false ∧ c ∉ ['-', '€', '$', '²']

/-- Nothing, or words that end in a space. -/
def IsLeadIn (words : Text) : Prop :=
  words = [] ∨ ((∀ c ∈ words, IsWordChar c) ∧ words.getLast? = some ' ')

section Cleaning

variable {words space : Text} {n : SpanishNumeral}

theorem IsLeadIn.isWordChar (h : IsLeadIn words) {c : Char} (hc : c ∈ words) :
    IsWordChar c := by
  rcases h with rfl | ⟨hwords, -⟩
  · simp at hc
  · exact hwords c hc

theorem IsLeadIn.ne_of_mem_getLast? (h : IsLeadIn words) {c : Char}
    (hc : c ∈ words.getLast?) : c = ' ' := by
  rcases h with rfl | ⟨-, hlast⟩
  · simp at hc
  · rw [hlast] at hc
    exact (Option.some.inj hc).symm

/-- Neither the words nor the numeral hold any part of a unit that could be removed. -/
theorem remove_token (hwords : IsLeadIn words) (hspace : ∀ c ∈ space, c = ' ')
    {token : Text} (htoken : token ∈ strippedTokens) (after : Text) :
    Text.remove token (words ++ (n.text ++ space) ++ after) =
      words ++ (n.text ++ space) ++ Text.remove token after := by
  have hnumeral : ∀ d, isNumeric d = false → d ≠ ' ' → d ∉ n.text ++ space := by
    intro d hd hne hmem
    rcases List.mem_append.mp hmem with hmem | hmem
    · rw [n.isNumeric_of_mem_text hmem] at hd
      cases hd
    · exact hne (hspace d hmem)
  have hword : ∀ d ∈ ['-', '€', '$', '²'], d ∉ words := fun d hd hmem =>
    (hwords.isWordChar hmem).2 hd
  have hsymbol : ∀ d ∈ ['€', '$'], Text.remove [d] (words ++ (n.text ++ space) ++ after) =
      words ++ (n.text ++ space) ++ Text.remove [d] after := by
    intro d hd
    apply Text.remove_append_of_not_mem
    rw [List.mem_append, not_or]
    constructor
    · exact hword d ((by decide : ['€', '$'] ⊆ ['-', '€', '$', '²']) hd)
    · have hall : ['€', '$'].all (fun d => !isNumeric d && d != ' ') = true := by decide
      have hsymbol := List.all_eq_true.mp hall d hd
      simp only [Bool.and_eq_true, Bool.not_eq_true', bne_iff_ne] at hsymbol
      exact hnumeral d hsymbol.1 hsymbol.2
  have hmetres : ∀ d ∈ ['²', '2'],
      Text.remove ['m', d] (words ++ (n.text ++ space) ++ after) =
        words ++ (n.text ++ space) ++ Text.remove ['m', d] after := by
    intro d hd
    rw [List.append_assoc words, List.append_assoc words,
      Text.remove_append_of_separated,
      Text.remove_append_of_not_mem (hnumeral 'm' (by decide) (by decide))]
    · intro hmem
      obtain ⟨hnumeric, hnot⟩ := hwords.isWordChar hmem
      simp only [List.mem_cons, List.not_mem_nil, or_false] at hd
      rcases hd with rfl | rfl
      · simp at hnot
      · exact absurd hnumeric (by decide)
    · intro c hc
      rw [hwords.ne_of_mem_getLast? hc]
      decide
  simp only [strippedTokens, List.mem_cons, List.not_mem_nil, or_false] at htoken
  obtain rfl | rfl | rfl | rfl := htoken
  · exact hsymbol '€' (by decide)
  · exact hsymbol '$' (by decide)
  · exact hmetres '²' (by decide)
  · exact hmetres '2' (by decide)

theorem foldl_remove (hwords : IsLeadIn words) (hspace : ∀ c ∈ space, c = ' ')
    {tokens : List Text} (htokens : tokens ⊆ strippedTokens) (after : Text) :
    tokens.foldl (fun cleaned token => Text.remove token cleaned)
        (words ++ (n.text ++ space) ++ after) =
      words ++ (n.text ++ space) ++
        tokens.foldl (fun cleaned token => Text.remove token cleaned) after := by
  induction tokens generalizing after with
  | nil => rfl
  | cons token tokens ih =>
      obtain ⟨htoken, hrest⟩ := List.cons_subset.mp htokens
      rw [List.foldl_cons, List.foldl_cons, remove_token hwords hspace htoken, ih hrest]

def units : List Text := [] :: strippedTokens

theorem foldl_remove_unit {unit : Text} (h : unit ∈ units) :
    strippedTokens.foldl (fun cleaned token => Text.remove token cleaned) unit = [] := by
  revert unit
  decide

theorem numericToken_clean (hwords : IsLeadIn words) (hspace : ∀ c ∈ space, c = ' ')
    {unit : Text} (hunit : unit ∈ units) :
    numericToken (clean (words ++ (n.text ++ space) ++ unit)) = some n.text := by
  rw [clean, numericToken_strip, foldl_remove hwords hspace (List.Subset.refl _),
    foldl_remove_unit hunit, List.append_nil, numericToken_of_skipped,
    numericToken_append]
  · obtain ⟨c, t, ht⟩ : ∃ c t, n.text = c :: t := by
      refine List.exists_cons_of_ne_nil fun hnil => n.whole_ne_nil ?_
      rw [← n.wholeOf_text, hnil]
      rfl
    rw [ht]
    exact numericToken_of_numeric (ht ▸ fun d hd => n.isNumeric_of_mem_text hd)
  · intro c hc
    rw [hspace c hc]
    decide
  · intro c hc
    obtain ⟨hnumeric, hnot⟩ := hwords.isWordChar hc
    exact ⟨hnumeric, fun hminus => hnot (by rw [hminus]; decide)⟩

end Cleaning

/-! ## Amounts and areas -/

theorem lt_zero_of_exact {d : Decimal} {r : ℚ} (h : d.exact = some r) :
    d.lt zeroDecimal = .ok (decide (r < 0)) := by
  have hzero : zeroDecimal.exact = some 0 := by
    simp [zeroDecimal, Decimal.ofInt, Decimal.exact, Decimal.value]
  rw [Decimal.lt, Decimal.ordered_of_exact h hzero]
  congr 1
  rw [Bool.eq_iff_iff, beq_iff_eq, compare_lt_iff_lt, decide_eq_true_iff]

theorem le_zero_of_exact {d : Decimal} {r : ℚ} (h : d.exact = some r) :
    d.le zeroDecimal = .ok (decide (r ≤ 0)) := by
  have hzero : zeroDecimal.exact = some 0 := by
    simp [zeroDecimal, Decimal.ofInt, Decimal.exact, Decimal.value]
  rw [Decimal.le, Decimal.ordered_of_exact h hzero]
  congr 1
  rw [Bool.eq_iff_iff, bne_iff_ne, compare_le_iff_le, decide_eq_true_iff]

theorem parseMoney_of_decimal {text : Text} {d : Decimal} {r : ℚ}
    (h : parseDecimal text = some d) (hr : d.exact = some r) :
    (0 ≤ r → ∃ m, parseMoney text = .ok (some m) ∧ m.amount = d) ∧
      (r < 0 → parseMoney text = .ok none) := by
  have hlt := lt_zero_of_exact hr
  constructor
  · intro hnonneg
    rw [decide_eq_false (not_lt.mpr hnonneg)] at hlt
    refine ⟨⟨d, .eur, hlt⟩, ?_, rfl⟩
    rw [parseMoney, h]
    dsimp only
    rw [Money.new_of_not_lt _ hlt]
    rfl
  · intro hneg
    rw [decide_eq_true hneg] at hlt
    rw [parseMoney, h]
    dsimp only
    rw [Money.new_of_lt _ hlt]
    rfl

theorem parseArea_of_decimal {text : Text} {d : Decimal} {r : ℚ}
    (h : parseDecimal text = some d) (hr : d.exact = some r) :
    (0 < r → ∃ a, parseArea text = .ok (some a) ∧ a.squareMeters = d) ∧
      (r ≤ 0 → parseArea text = .ok none) := by
  have hle := le_zero_of_exact hr
  constructor
  · intro hpos
    rw [decide_eq_false (not_le.mpr hpos)] at hle
    refine ⟨⟨d, hle⟩, ?_, rfl⟩
    rw [parseArea, h]
    dsimp only
    rw [Area.new_of_not_le hle]
    rfl
  · intro hneg
    rw [decide_eq_true hneg] at hle
    rw [parseArea, h]
    dsimp only
    rw [Area.new_of_le hle]
    rfl

theorem SpanishNumeral.value_nonneg (n : SpanishNumeral) : 0 ≤ n.value := by
  unfold SpanishNumeral.value
  positivity

/--
A numeral for a number that a `Decimal` can hold, with or without words before it
and a space and a unit behind it, is parsed to exactly that amount of money and,
unless it is zero, exactly that area.
-/
theorem spanish_numerals_round_trip (n : SpanishNumeral) (hrange : n.amount.InRange)
    {words space unit : Text} (hwords : IsLeadIn words) (hspace : space ∈ [[], [' ']])
    (hunit : unit ∈ units) :
    (∃ m, parseMoney (words ++ (n.text ++ space) ++ unit) = .ok (some m) ∧
      m.amount.exact = some n.value) ∧
    (0 < n.value → ∃ a, parseArea (words ++ (n.text ++ space) ++ unit) = .ok (some a) ∧
      a.squareMeters.exact = some n.value) ∧
    (n.value = 0 → parseArea (words ++ (n.text ++ space) ++ unit) = .ok none) := by
  have hspaces : ∀ c ∈ space, c = ' ' := by
    simp only [List.mem_cons, List.not_mem_nil, or_false] at hspace
    rcases hspace with rfl | rfl <;> simp
  have hdecimal : parseDecimal (words ++ (n.text ++ space) ++ unit) = some n.amount := by
    rw [parseDecimal, numericToken_clean hwords hspaces hunit, Option.bind_some,
      n.ofText_text hrange]
  have hmoney := parseMoney_of_decimal hdecimal n.exact_amount
  have harea := parseArea_of_decimal hdecimal n.exact_amount
  refine ⟨?_, fun hpos => ?_, fun hzero => harea.2 hzero.le⟩
  · obtain ⟨m, hm, hamount⟩ := hmoney.1 n.value_nonneg
    exact ⟨m, hm, hamount ▸ n.exact_amount⟩
  · obtain ⟨a, ha, hamount⟩ := harea.1 hpos
    exact ⟨a, ha, hamount ▸ n.exact_amount⟩

/-- `1.234,56`. -/
def groupedNumeral : SpanishNumeral where
  lead := "1".toList
  groups := ["234".toList]
  decimals := some "56".toList
  leadDigits := List.all_eq_true.mp (by decide)
  groupDigits := List.forall_mem_singleton.mpr (List.all_eq_true.mp (by decide))
  decimalDigits := by
    rintro _ ⟨⟩
    exact List.all_eq_true.mp (by decide)
  leads := by decide
  short := by decide
  triples := by decide

theorem spanish_numerals_round_trip_grouped :
    (∃ m, parseMoney "Precio 1.234,56 €".toList = .ok (some m) ∧
      m.amount.exact = some groupedNumeral.value) ∧
    (0 < groupedNumeral.value → ∃ a,
      parseArea "Precio 1.234,56 €".toList = .ok (some a) ∧
        a.squareMeters.exact = some groupedNumeral.value) ∧
    (groupedNumeral.value = 0 → parseArea "Precio 1.234,56 €".toList = .ok none) :=
  have hwords : ∀ c ∈ "Precio ".toList, IsWordChar c := by
    have hall : "Precio ".toList.all (fun c =>
        !isNumeric c && !(['-', '€', '$', '²'].contains c)) = true := by decide
    intro c hc
    simpa [IsWordChar] using List.all_eq_true.mp hall c hc
  @spanish_numerals_round_trip groupedNumeral (by decide) "Precio ".toList [' '] ['€']
    (.inr ⟨hwords, rfl⟩) (by decide) (by decide)

end RealEstateTracker.Infrastructure
