import RealEstateTracker.Infrastructure.SpanishNumerals

/-!
# Numbers that are misread

The parsers drop every point of a token, wherever it stands.  A token that is no
numeral is therefore read as some number, unless it has no digit, more than one
comma or a sign that makes the number negative.
-/

namespace RealEstateTracker.Infrastructure

open Foundation Domain

/-! ## Tokens -/

/-- A token without the points and commas at its end. -/
def core (token : Text) : Text := token.rdropWhile fun c => c = '.' || c = ','

def IsNumeral (t : Text) : Prop := ∃ n : SpanishNumeral, n.text = t

theorem exists_sign_of_numericToken {t token : Text} (h : numericToken t = some token) :
    ∃ negative body, token = Decimal.signText negative ++ body ∧ body ≠ [] ∧
      ∀ c ∈ body, isNumeric c = true := by
  have hrun : ∀ rest : Text, ∀ c ∈ rest.takeWhile isNumeric, isNumeric c = true :=
    fun rest c hc => List.mem_takeWhile_imp hc
  induction t with
  | nil => simp [numericToken] at h
  | cons c rest ih =>
      unfold numericToken at h
      split at h
      · next hc =>
        obtain rfl := Option.some.inj h
        exact ⟨false, _, rfl, by simp, List.forall_mem_cons.mpr ⟨hc, hrun rest⟩⟩
      · split at h
        · next hminus =>
          obtain rfl := Option.some.inj h
          refine ⟨true, rest.takeWhile isNumeric, rfl, ?_, hrun rest⟩
          cases rest with
          | nil => simp at hminus
          | cons d rest =>
              have hd : isNumeric d = true := by simpa using hminus.2
              simp [hd]
        · exact ih h

/-! ## What the parser makes of a token -/

/-- The token as the parser reads it, whether or not that is what it says. -/
def tokenNumber (token : Text) : Decimal :=
  let (negative, body) := Decimal.splitSign token
  numberFrom negative (wholeOf body) (fractionOf body)

/-- No digit, two commas, a negative number, or more digits than a `Decimal` holds. -/
inductive Unread (token : Text) : Prop
  | blank (h : ∀ c ∈ token, Text.isDigit c = false)
  | commas (h : 2 ≤ token.count ',')
  | negative (h : token.head? = some '-')
      (h' : ∃ c ∈ token, 0 < (Text.digit? c).getD 0)
  | long (h : ¬(tokenNumber token).InRange)

section Body

variable {body : Text} (hbody : ∀ c ∈ body, isNumeric c = true)

include hbody in
theorem splitSign_body (negative : Bool) :
    Decimal.splitSign (Decimal.signText negative ++ body) = (negative, body) := by
  refine Decimal.splitSign_signText fun c hc => ?_
  have hnumeric := hbody c (List.mem_of_mem_head? hc)
  constructor
  · rintro rfl
    exact absurd hnumeric (by decide)
  · rintro rfl
    exact absurd hnumeric (by decide)

include hbody in
theorem mem_digits_iff (hcount : body.count ',' ≤ 1) {c : Char} :
    c ∈ wholeOf body ++ fractionOf body ↔ c ∈ body ∧ Text.isDigit c = true := by
  have hdigits : ∀ t ⊆ body, ',' ∉ t →
      (c ∈ digitsOf t ↔ c ∈ t ∧ Text.isDigit c = true) := by
    intro t ht hcomma
    refine ⟨fun h => ⟨List.mem_of_mem_filter h,
      isDigit_of_mem_digitsOf hbody ht hcomma h⟩, fun ⟨hmem, hc⟩ => ?_⟩
    exact List.mem_filter.mpr ⟨hmem, decide_eq_true (ne_of_isDigit hc (by decide))⟩
  by_cases hcomma : ',' ∈ body
  · obtain ⟨left, right, rfl, hleft⟩ := List.eq_append_cons_of_mem hcomma
    have hright : ',' ∉ right := by
      rw [List.count_append, List.count_eq_zero_of_not_mem hleft,
        List.count_cons_self] at hcount
      exact List.count_eq_zero.mp (by omega)
    have hne : Text.isDigit c = true → c ≠ ',' := fun h =>
      ne_of_isDigit h (by decide)
    rw [wholeOf, fractionOf, Text.partition_append hleft, List.mem_append,
      hdigits left (by simp) hleft, hdigits right (fun d hd => by simp [hd]) hright,
      List.mem_append, List.mem_cons]
    constructor
    · rintro (⟨h, hc⟩ | ⟨h, hc⟩)
      · exact ⟨.inl h, hc⟩
      · exact ⟨.inr (.inr h), hc⟩
    · rintro ⟨h | h | h, hc⟩
      · exact .inl ⟨h, hc⟩
      · exact absurd h (hne hc)
      · exact .inr ⟨h, hc⟩
  · rw [wholeOf, fractionOf, Text.partition_of_not_mem hcomma, List.mem_append,
      hdigits body (List.Subset.refl body) hcomma]
    simp [digitsOf]

end Body

theorem digitsValue_eq_zero_iff {t : Text} :
    Text.digitsValue t = 0 ↔ ∀ c ∈ t, (Text.digit? c).getD 0 = 0 := by
  induction t using List.reverseRecOn with
  | nil => simp [Text.digitsValue]
  | append_singleton t c ih =>
      rw [Text.digitsValue_append_singleton, List.forall_mem_append,
        List.forall_mem_singleton, ← ih]
      omega

/-! ## Which tokens are read -/

section Signs

variable {negative : Bool} {body : Text}

theorem count_comma_token :
    (Decimal.signText negative ++ body).count ',' = body.count ',' := by
  cases negative <;> simp [Decimal.signText]

theorem head?_token (hne : body ≠ []) (hbody : ∀ c ∈ body, isNumeric c = true) :
    (Decimal.signText negative ++ body).head? = some '-' ↔ negative = true := by
  cases negative with
  | true => simp [Decimal.signText]
  | false =>
      obtain ⟨c, rest, rfl⟩ := List.exists_cons_of_ne_nil hne
      have hc := hbody c (.head rest)
      refine iff_of_false ?_ (by simp)
      rintro ⟨⟩
      exact absurd hc (by decide)

theorem exists_digit_token {P : Char → Prop} (hminus : ¬P '-') :
    (∃ c ∈ Decimal.signText negative ++ body, P c) ↔ ∃ c ∈ body, P c := by
  cases negative with
  | false => simp [Decimal.signText]
  | true => simp [Decimal.signText, hminus]

end Signs

theorem isDigit_of_digit_pos {c : Char} (h : 0 < (Text.digit? c).getD 0) :
    Text.isDigit c = true := by
  cases hc : Text.digit? c with
  | none => simp [hc] at h
  | some d => simp [Text.isDigit, hc]

def readValue (negative : Bool) (body : Text) : ℚ :=
  Decimal.value negative (Text.digitsValue (wholeOf body ++ fractionOf body))
    (-((fractionOf body).length : ℤ))

section Selected

variable {text : Text} {negative : Bool} {body : Text}

theorem readValue_neg_iff (hbody : ∀ c ∈ body, isNumeric c = true)
    (hcount : body.count ',' ≤ 1) : readValue negative body < 0 ↔
      negative = true ∧ ∃ c ∈ body, 0 < (Text.digit? c).getD 0 := by
  have hzero : Text.digitsValue (wholeOf body ++ fractionOf body) = 0 ↔
      ¬∃ c ∈ body, 0 < (Text.digit? c).getD 0 := by
    simp only [digitsValue_eq_zero_iff, mem_digits_iff hbody hcount]
    push Not
    refine forall_congr' fun c => ⟨fun h hc => ?_, fun h hc => ?_⟩
    · by_cases hdigit : Text.isDigit c = true
      · exact (h ⟨hc, hdigit⟩).le
      · exact not_lt.mp fun hpos => hdigit (isDigit_of_digit_pos hpos)
    · exact Nat.le_zero.mp (h hc.1)
  have hten : (0 : ℚ) < 10 ^ (-((fractionOf body).length : ℤ)) := by positivity
  rw [← not_not (a := ∃ c ∈ body, 0 < (Text.digit? c).getD 0), ← hzero]
  unfold readValue Decimal.value
  generalize Text.digitsValue (wholeOf body ++ fractionOf body) = digits
  cases negative with
  | false =>
      refine iff_of_false (not_lt.mpr ?_) (by simp)
      rw [if_neg (by simp)]
      positivity
  | true =>
      rw [if_pos rfl, neg_mul, neg_lt_zero, mul_pos_iff_of_pos_right hten,
        Nat.cast_pos, Nat.pos_iff_ne_zero]
      simp

theorem unread_iff (hne : body ≠ []) (hbody : ∀ c ∈ body, isNumeric c = true) :
    Unread (Decimal.signText negative ++ body) ↔
      (¬∃ c ∈ body, Text.isDigit c = true) ∨ 2 ≤ body.count ',' ∨
        (negative = true ∧ ∃ c ∈ body, 0 < (Text.digit? c).getD 0) ∨
        ¬(numberFrom negative (wholeOf body) (fractionOf body)).InRange := by
  have hdigit : (∃ c ∈ Decimal.signText negative ++ body, Text.isDigit c = true) ↔
      ∃ c ∈ body, Text.isDigit c = true := exists_digit_token (by decide)
  have hpos : (∃ c ∈ Decimal.signText negative ++ body, 0 < (Text.digit? c).getD 0) ↔
      ∃ c ∈ body, 0 < (Text.digit? c).getD 0 := exists_digit_token (by decide)
  have hnumber : tokenNumber (Decimal.signText negative ++ body) =
      numberFrom negative (wholeOf body) (fractionOf body) := by
    rw [tokenNumber, splitSign_body hbody]
  rw [← hdigit, ← hpos, ← head?_token hne hbody, ← hnumber,
    ← @count_comma_token negative body]
  constructor
  · rintro (h | h | ⟨h, h'⟩ | h)
    · exact .inl fun ⟨c, hc, hdigit⟩ => by simp [h c hc] at hdigit
    · exact .inr (.inl h)
    · exact .inr (.inr (.inl ⟨h, h'⟩))
    · exact .inr (.inr (.inr h))
  · rintro (h | h | ⟨h, h'⟩ | h)
    · exact .blank fun c hc => by simpa using fun hdigit => h ⟨c, hc, hdigit⟩
    · exact .commas h
    · exact .negative h h'
    · exact .long h

theorem not_unread_iff (hne : body ≠ []) (hbody : ∀ c ∈ body, isNumeric c = true) :
    ¬Unread (Decimal.signText negative ++ body) ↔
      body.count ',' ≤ 1 ∧ wholeOf body ++ fractionOf body ≠ [] ∧
        0 ≤ readValue negative body ∧
        (numberFrom negative (wholeOf body) (fractionOf body)).InRange := by
  rw [unread_iff hne hbody]
  simp only [not_or, not_not]
  by_cases hcount : body.count ',' ≤ 1
  · have hdigits : (∃ c ∈ body, Text.isDigit c = true) ↔
        wholeOf body ++ fractionOf body ≠ [] := by
      constructor
      · rintro ⟨c, hc⟩
        exact List.ne_nil_of_mem ((mem_digits_iff hbody hcount).mpr hc)
      · intro hdigits
        obtain ⟨c, hc⟩ := List.exists_mem_of_ne_nil _ hdigits
        exact ⟨c, (mem_digits_iff hbody hcount).mp hc⟩
    rw [hdigits, ← readValue_neg_iff hbody hcount, not_lt, not_le]
    exact ⟨fun ⟨h, _, h', h''⟩ => ⟨hcount, h, h', h''⟩,
      fun ⟨_, h, h', h''⟩ => ⟨h, by omega, h', h''⟩⟩
  · exact iff_of_false (fun ⟨_, h, _⟩ => h (by omega)) fun ⟨h, _⟩ => hcount h

variable (htoken : numericToken (clean text) = some (Decimal.signText negative ++ body))
  (hbody : ∀ c ∈ body, isNumeric c = true)

include htoken hbody

theorem parseDecimal_of_token :
    parseDecimal text = if body.count ',' ≤ 1 then
      read negative (wholeOf body) (fractionOf body) else none := by
  rw [parseDecimal, htoken, Option.bind_some, ofText_pointed hbody]

theorem parseMoney_of_not_unread (hne : body ≠ [])
    (h : ¬Unread (Decimal.signText negative ++ body)) :
    ∃ m, parseMoney text = .ok (some m) ∧
      m.amount = numberFrom negative (wholeOf body) (fractionOf body) := by
  obtain ⟨hcount, hdigits, hnonneg, hrange⟩ := (not_unread_iff hne hbody).mp h
  have hparse := parseDecimal_of_token htoken hbody
  rw [if_pos hcount, read, if_neg hdigits, if_pos hrange] at hparse
  exact (parseMoney_of_decimal hparse rfl).1 hnonneg

theorem absent_of_unread (hne : body ≠ [])
    (h : Unread (Decimal.signText negative ++ body)) :
    parseMoney text = .ok none ∧ parseArea text = .ok none := by
  have hparse := parseDecimal_of_token htoken hbody
  have hnone : parseDecimal text = none →
      parseMoney text = .ok none ∧ parseArea text = .ok none := by
    intro hnone
    rw [parseMoney, parseArea, hnone]
    exact ⟨rfl, rfl⟩
  by_cases hcount : body.count ',' ≤ 1
  · rw [if_pos hcount, read] at hparse
    split at hparse
    · exact hnone hparse
    · next hdigits =>
      split at hparse
      · next hrange =>
        have hneg : readValue negative body < 0 := by
          by_contra hnonneg
          exact (not_unread_iff hne hbody).mpr
            ⟨hcount, hdigits, not_lt.mp hnonneg, hrange⟩ h
        exact ⟨(parseMoney_of_decimal hparse rfl).2 hneg,
          (parseArea_of_decimal hparse rfl).2 hneg.le⟩
      · exact hnone hparse
  · exact hnone (hparse.trans (if_neg hcount))

end Selected

/-! ## Numerals at the start of a token -/

section Numerals

variable {n : SpanishNumeral} {trail : Text} (htrail : ∀ c ∈ trail, c = '.' ∨ c = ',')

theorem digitsOf_points {t : Text} (h : ∀ c ∈ t, c = '.' ∨ c = ',')
    (hcomma : ',' ∉ t) : digitsOf t = [] := by
  rw [digitsOf, List.filter_eq_nil_iff]
  intro c hc
  have hne : c ≠ ',' := fun heq => hcomma (heq ▸ hc)
  simpa using (h c hc).resolve_right hne

include htrail in
theorem read_text_append (hcount : (n.text ++ trail).count ',' ≤ 1) :
    wholeOf (n.text ++ trail) = n.whole ∧ fractionOf (n.text ++ trail) = n.fraction := by
  have hinteger := n.comma_not_mem_integerText
  unfold wholeOf fractionOf SpanishNumeral.text SpanishNumeral.fraction at *
  cases hds : n.decimals with
  | some ds =>
      simp only [hds] at hcount ⊢
      have hnone : ',' ∉ trail := by
        rw [List.append_assoc, List.count_append,
          List.count_eq_zero_of_not_mem hinteger, List.cons_append,
          List.count_cons_self, List.count_append] at hcount
        exact List.count_eq_zero.mp (by omega)
      rw [List.append_assoc, List.cons_append, Text.partition_append hinteger]
      refine ⟨n.digitsOf_integerText, ?_⟩
      rw [SpanishNumeral.digitsOf_append, digitsOf_points htrail hnone,
        List.append_nil]
      exact SpanishNumeral.digitsOf_of_digits (n.decimalDigits ds hds)
  | none =>
      simp only [hds] at hcount ⊢
      by_cases hcomma : ',' ∈ trail
      · obtain ⟨left, right, rfl, hleft⟩ := List.eq_append_cons_of_mem hcomma
        have hright : ',' ∉ right := by
          rw [List.count_append, List.count_eq_zero_of_not_mem hinteger,
            List.count_append, List.count_cons_self] at hcount
          exact List.count_eq_zero.mp (by omega)
        have hjoin : ',' ∉ n.integerText ++ left := by
          rw [List.mem_append, not_or]
          exact ⟨hinteger, hleft⟩
        rw [← List.append_assoc, Text.partition_append hjoin]
        refine ⟨?_, digitsOf_points (fun c hc => htrail c (by simp [hc])) hright⟩
        rw [SpanishNumeral.digitsOf_append, n.digitsOf_integerText,
          digitsOf_points (fun c hc => htrail c (by simp [hc])) hleft, List.append_nil]
      · have hjoin : ',' ∉ n.integerText ++ trail := by
          rw [List.mem_append, not_or]
          exact ⟨hinteger, hcomma⟩
        rw [Text.partition_of_not_mem hjoin, SpanishNumeral.digitsOf_append,
          n.digitsOf_integerText, digitsOf_points htrail hcomma, List.append_nil]
        exact ⟨rfl, rfl⟩

end Numerals

/-! ## Misreading -/

/-- The number is the one that the selected token denotes. -/
def Denotes (text : Text) (d : Decimal) : Prop :=
  ∃ token n, numericToken (clean text) = some token ∧
    core token = SpanishNumeral.text n ∧ d.exact = some n.value

/-- Whatever the parsers return is what the selected token denotes. -/
def NeverMisread (text : Text) : Prop :=
  (∀ m, parseMoney text = .ok (some m) → Denotes text m.amount) ∧
    ∀ a, parseArea text = .ok (some a) → Denotes text a.squareMeters

theorem parseDecimal_of_parseMoney {text : Text} {m : Money}
    (h : parseMoney text = .ok (some m)) : parseDecimal text = some m.amount := by
  unfold parseMoney at h
  split at h
  · cases h
  · next amount hamount =>
    cases hnew : Money.new amount .eur with
    | error error => cases error <;> simp [hnew, orAbsent] at h
    | ok m' =>
        simp only [hnew, orAbsent, Except.ok.injEq, Option.some.injEq] at h
        rw [hamount, ← h, (Money.new_eq_ok hnew).1]

theorem parseDecimal_of_parseArea {text : Text} {a : Area}
    (h : parseArea text = .ok (some a)) : parseDecimal text = some a.squareMeters := by
  unfold parseArea at h
  split at h
  · cases h
  · next value hvalue =>
    cases hnew : Area.new value with
    | error error => cases error <;> simp [hnew, orAbsent] at h
    | ok a' =>
        simp only [hnew, orAbsent, Except.ok.injEq, Option.some.injEq] at h
        rw [hvalue, ← h, Area.new_eq_ok hnew]

theorem SpanishNumeral.text_ne_nil (n : SpanishNumeral) : n.text ≠ [] := by
  intro hnil
  refine n.whole_ne_nil ?_
  rw [← n.wholeOf_text, hnil]
  rfl

theorem denotes_of_numeral {text token : Text} {n : SpanishNumeral} {d : Decimal}
    (htoken : numericToken (clean text) = some token) (hcore : core token = n.text)
    (hd : parseDecimal text = some d) : Denotes text d := by
  obtain ⟨negative, body, rfl, hne, hbody⟩ := exists_sign_of_numericToken htoken
  obtain ⟨trail, hjoin, htrail⟩ : ∃ trail,
      Decimal.signText negative ++ body = n.text ++ trail ∧
        ∀ c ∈ trail, c = '.' ∨ c = ',' := by
    refine ⟨(Decimal.signText negative ++ body).rtakeWhile fun c => c = '.' || c = ',',
      ?_, fun c hc => ?_⟩
    · rw [← hcore, core, List.rdropWhile_append_rtakeWhile]
    · simpa using List.mem_rtakeWhile_imp hc
  have hsign : negative = false := by
    cases negative with
    | false => rfl
    | true =>
        obtain ⟨c, rest, htext⟩ := List.exists_cons_of_ne_nil n.text_ne_nil
        have hc := n.isNumeric_of_mem_text (htext ▸ List.mem_cons_self)
        rw [htext] at hjoin
        obtain ⟨rfl, -⟩ := List.cons.inj hjoin
        exact absurd hc (by decide)
  subst hsign
  have hjoin : body = n.text ++ trail := hjoin
  have hparse := parseDecimal_of_token htoken hbody
  rw [hd] at hparse
  split at hparse
  · next hcount =>
    rw [hjoin] at hcount
    obtain ⟨hwhole, hfraction⟩ := read_text_append htrail hcount
    rw [hjoin, hwhole, hfraction, read] at hparse
    split at hparse
    · cases hparse
    · split at hparse
      · refine ⟨_, n, htoken, hcore, ?_⟩
        rw [Option.some.inj hparse]
        exact n.exact_amount
      · cases hparse
  · cases hparse

/--
A text is never misread if and only if the token that is selected, without the
points and commas at its end, is a numeral, or is a token that the parsers leave
alone.
-/
theorem never_misread_iff (text : Text) :
    NeverMisread text ↔ ∀ token, numericToken (clean text) = some token →
      IsNumeral (core token) ∨ Unread token := by
  constructor
  · rintro ⟨hmoney, -⟩ token htoken
    by_contra hnot
    obtain ⟨hnumeral, hread⟩ := not_or.mp hnot
    obtain ⟨negative, body, rfl, hne, hbody⟩ := exists_sign_of_numericToken htoken
    obtain ⟨m, hm, -⟩ := parseMoney_of_not_unread htoken hbody hne hread
    obtain ⟨token', n, htoken', hcore, -⟩ := hmoney m hm
    rw [htoken] at htoken'
    obtain rfl := Option.some.inj htoken'
    exact hnumeral ⟨n, hcore.symm⟩
  · intro h
    cases htoken : numericToken (clean text) with
    | none =>
        have hnone : parseDecimal text = none := by
          rw [parseDecimal, htoken, Option.bind_none]
        refine ⟨fun m hm => ?_, fun a ha => ?_⟩
        · have := parseDecimal_of_parseMoney hm
          rw [hnone] at this
          cases this
        · have := parseDecimal_of_parseArea ha
          rw [hnone] at this
          cases this
    | some token =>
        obtain ⟨n, hn⟩ | hunread := h token htoken
        · exact ⟨fun m hm => denotes_of_numeral htoken hn.symm
              (parseDecimal_of_parseMoney hm),
            fun a ha => denotes_of_numeral htoken hn.symm
              (parseDecimal_of_parseArea ha)⟩
        · obtain ⟨negative, body, rfl, hne, hbody⟩ := exists_sign_of_numericToken htoken
          obtain ⟨hmoney, harea⟩ := absent_of_unread htoken hbody hne hunread
          refine ⟨fun m hm => ?_, fun a ha => ?_⟩
          · rw [hmoney] at hm
            cases hm
          · rw [harea] at ha
            cases ha

theorem SpanishNumeral.length_of_point {n : SpanishNumeral} (h : '.' ∈ n.text) :
    5 ≤ n.text.length := by
  have hgroups : n.groups ≠ [] := by
    intro hnil
    have hdigit : ∀ c ∈ n.text, c ≠ '.' := by
      intro c hc
      have hinteger : n.integerText = n.lead := by
        rw [integerText, hnil]
        exact List.append_nil _
      unfold text at hc
      cases hds : n.decimals with
      | none =>
          rw [hds, hinteger] at hc
          exact ne_of_isDigit (n.leadDigits c hc) (by decide)
      | some ds =>
          rw [hds, hinteger] at hc
          rcases List.mem_append.mp hc with hc | hc
          · exact ne_of_isDigit (n.leadDigits c hc) (by decide)
          · rcases List.mem_cons.mp hc with rfl | hc
            · decide
            · exact ne_of_isDigit (n.decimalDigits ds hds c hc) (by decide)
    exact hdigit '.' h rfl
  obtain ⟨g, groups, hcons⟩ := List.exists_cons_of_ne_nil hgroups
  have hg : g.length = 3 := n.triples g (by rw [hcons]; exact .head groups)
  have hlead : 0 < n.lead.length := List.length_pos_iff.mpr n.leads
  have hinteger : 5 ≤ n.integerText.length := by
    rw [integerText, hcons, List.flatMap_cons, List.length_append, List.length_append,
      List.length_cons]
    omega
  refine hinteger.trans ?_
  unfold text
  cases n.decimals with
  | none => exact le_rfl
  | some ds =>
      dsimp only
      rw [List.length_append]
      omega

/-- `1.5` is read as fifteen, although it is no numeral. -/
theorem point_five_is_misread :
    (∃ m, parseMoney "1.5 €".toList = .ok (some m) ∧
      m.amount = .finite false 15 0) ∧
    ¬∀ text, NeverMisread text := by
  have hread : ∃ m, parseMoney "1.5 €".toList = .ok (some m) ∧
      m.amount = .finite false 15 0 := ⟨⟨.finite false 15 0, .eur, by decide⟩, by decide, rfl⟩
  refine ⟨hread, fun h => ?_⟩
  obtain ⟨m, hm, -⟩ := hread
  obtain ⟨token, n, htoken, hcore, -⟩ := (h _).1 m hm
  have htoken' : numericToken (clean "1.5 €".toList) = some "1.5".toList := by decide
  rw [htoken'] at htoken
  obtain rfl := Option.some.inj htoken
  have htext : n.text = "1.5".toList := hcore.symm
  have hlength := SpanishNumeral.length_of_point (n := n) (by rw [htext]; decide)
  rw [htext] at hlength
  exact absurd hlength (by decide)

end RealEstateTracker.Infrastructure
