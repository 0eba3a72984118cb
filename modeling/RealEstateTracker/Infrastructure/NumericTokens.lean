import RealEstateTracker.Infrastructure.Parsers

/-!
# Numeric tokens

A token is a run of digits, points and commas, possibly after a minus sign.  The
parser drops the points and takes the comma for a decimal point, so it reads
every token that has a digit and at most one comma.
-/

namespace RealEstateTracker.Infrastructure

open Foundation Domain

/-! ## Reading digits and a point -/

section Reading

theorem ne_of_isDigit {c d : Char} (h : Text.isDigit c = true)
    (hd : Text.isDigit d = false) : c ≠ d := by
  rintro rfl
  rw [h] at hd
  cases hd

theorem asciiLower_of_isDigit {c : Char} (h : Text.isDigit c = true) :
    Decimal.asciiLower c = c := by
  have hnot := @Text.not_isDigit_of_disjoint ((List.range 26).map (· + 65))
    (by decide) c h
  refine if_neg fun hupper => hnot ?_
  have hlow : 65 ≤ c.toNat := hupper.1
  have hhigh : c.toNat ≤ 90 := hupper.2
  simp only [List.mem_map, List.mem_range]
  exact ⟨c.toNat - 65, by omega, by omega⟩

def IsPlain (c : Char) : Prop := Text.isDigit c = true ∨ c = '.'

variable {t : Text}

theorem IsPlain.ne {c d : Char} (h : IsPlain c) (hd : Text.isDigit d = false)
    (hpoint : '.' ≠ d) : c ≠ d := by
  rcases h with h | rfl
  · exact ne_of_isDigit h hd
  · exact hpoint

theorem map_asciiLower (h : ∀ c ∈ t, IsPlain c) : t.map Decimal.asciiLower = t := by
  have hself : ∀ c ∈ t, Decimal.asciiLower c = id c := by
    intro c hc
    rcases h c hc with hdigit | rfl
    · exact asciiLower_of_isDigit hdigit
    · rfl
  rw [List.map_congr_left hself, List.map_id]

theorem take_ne (h : ∀ c ∈ t, IsPlain c) {word : Text} {first : Char}
    (hword : word.head? = some first) (hdigit : Text.isDigit first = false)
    (hpoint : '.' ≠ first) (n : Nat) : t.take n ≠ word := by
  intro heq
  have hmem : first ∈ t.take n := by
    rw [heq]
    exact List.mem_of_mem_head? hword
  exact (h first (List.mem_of_mem_take hmem)).ne hdigit hpoint rfl

theorem ofText_plain (negative : Bool) (h : ∀ c ∈ t, IsPlain c) :
    Decimal.ofText (Decimal.signText negative ++ t) =
      Decimal.numberOf negative t := by
  have hchars : ∀ c ∈ Decimal.signText negative ++ t,
      Text.isSpace c = false ∧ (c != '_') = true := by
    intro c hc
    rcases List.mem_append.mp hc with hc | hc
    · cases negative with
      | false => simp [Decimal.signText] at hc
      | true =>
          obtain rfl := List.mem_singleton.mp hc
          decide
    · have hplain := h c hc
      refine ⟨?_, bne_iff_ne.mpr (hplain.ne (by decide) (by decide))⟩
      rcases hplain with hdigit | rfl
      · exact Text.isSpace_of_isDigit hdigit
      · decide
  have hsign : ∀ c ∈ t.head?, c ≠ '-' ∧ c ≠ '+' := by
    intro c hc
    have hplain := h c (List.mem_of_mem_head? hc)
    exact ⟨hplain.ne (by decide) (by decide), hplain.ne (by decide) (by decide)⟩
  have hinf : t.take t.length ≠ "inf".toList := take_ne h rfl (by decide) (by decide) _
  have hinfinity : t.take t.length ≠ "infinity".toList :=
    take_ne h rfl (by decide) (by decide) _
  rw [List.take_length] at hinf hinfinity
  have hnan : t.take 3 ≠ "nan".toList := take_ne h rfl (by decide) (by decide) 3
  have hsnan : t.take 4 ≠ "snan".toList := take_ne h rfl (by decide) (by decide) 4
  unfold Decimal.ofText
  rw [Text.strip_eq_self fun c hc => (hchars c hc).1,
    List.filter_eq_self.mpr fun c hc => (hchars c hc).2,
    Decimal.splitSign_signText hsign]
  dsimp only
  rw [map_asciiLower h, if_neg (not_or.mpr ⟨hinf, hinfinity⟩), if_neg hnan,
    if_neg hsnan]

def numberFrom (negative : Bool) (whole fraction : Text) : Decimal :=
  .finite negative (Text.digitsValue (whole ++ fraction)) (-(fraction.length : Int))

def read (negative : Bool) (whole fraction : Text) : Option Decimal :=
  if whole ++ fraction = [] then none
  else if (numberFrom negative whole fraction).InRange then
    some (numberFrom negative whole fraction)
  else none

variable {whole fraction : Text}

theorem numberOf_whole (negative : Bool)
    (h : ∀ c ∈ whole, Text.isDigit c = true) :
    Decimal.numberOf negative whole = read negative whole [] := by
  have htake : whole.takeWhile Text.isDigit = whole := List.takeWhile_eq_self_iff.mpr h
  have hdrop : whole.dropWhile Text.isDigit = [] := List.dropWhile_eq_nil_iff.mpr h
  simp [Decimal.numberOf, htake, hdrop, Decimal.fractionOf, Decimal.exponentOf, read,
    numberFrom]

theorem numberOf_fraction (negative : Bool)
    (h : ∀ c ∈ whole, Text.isDigit c = true)
    (h' : ∀ c ∈ fraction, Text.isDigit c = true) :
    Decimal.numberOf negative (whole ++ '.' :: fraction) =
      read negative whole fraction := by
  have hpoint : ∀ c ∈ ('.' :: fraction).head?, Text.isDigit c = false := by
    rintro c ⟨⟩
    decide
  have htake : fraction.takeWhile Text.isDigit = fraction :=
    List.takeWhile_eq_self_iff.mpr h'
  have hdrop : fraction.dropWhile Text.isDigit = [] :=
    List.dropWhile_eq_nil_iff.mpr h'
  rw [Decimal.numberOf, Text.takeWhile_isDigit_append h hpoint,
    Text.dropWhile_isDigit_append h hpoint]
  simp only [Decimal.fractionOf, Decimal.exponentOf, htake, hdrop, Int.zero_sub]
  rfl

theorem numberOf_two_points (negative : Bool) {rest : Text}
    (h : ∀ c ∈ whole, Text.isDigit c = true)
    (h' : ∀ c ∈ fraction, Text.isDigit c = true) :
    Decimal.numberOf negative (whole ++ '.' :: (fraction ++ '.' :: rest)) = none := by
  have hpoint : ∀ t : Text, ∀ c ∈ ('.' :: t).head?, Text.isDigit c = false := by
    rintro t c ⟨⟩
    decide
  rw [Decimal.numberOf, Text.takeWhile_isDigit_append h (hpoint _),
    Text.dropWhile_isDigit_append h (hpoint _), Decimal.fractionOf,
    Text.takeWhile_isDigit_append h' (hpoint _),
    Text.dropWhile_isDigit_append h' (hpoint _)]
  simp [Decimal.exponentOf]

end Reading

/-! ## Reading a token -/

def digitsOf (t : Text) : Text := t.filter (· ≠ '.')

def wholeOf (body : Text) : Text := digitsOf (Text.partition ',' body).1

def fractionOf (body : Text) : Text := digitsOf (Text.partition ',' body).2

theorem pointed_append (t t' : Text) : pointed (t ++ t') = pointed t ++ pointed t' := by
  simp [pointed]

theorem pointed_of_not_mem {t : Text} (h : ',' ∉ t) : pointed t = digitsOf t := by
  have hself : ∀ c ∈ t.filter (· ≠ '.'), (if c = ',' then '.' else c) = id c := by
    intro c hc
    rw [if_neg]
    · rfl
    · rintro rfl
      exact h (List.mem_of_mem_filter hc)
  rw [pointed, List.map_congr_left hself, List.map_id]
  rfl

theorem pointed_comma (t : Text) : pointed (',' :: t) = '.' :: pointed t := rfl

section Tokens

variable {body : Text}

theorem isDigit_of_mem_digitsOf (hbody : ∀ c ∈ body, isNumeric c = true) {t : Text}
    (ht : t ⊆ body) (hcomma : ',' ∉ t) {c : Char} (h : c ∈ digitsOf t) :
    Text.isDigit c = true := by
  obtain ⟨hmem, hpoint⟩ := List.mem_filter.mp h
  have hc := hbody c (ht hmem)
  have hne : c ≠ ',' := fun heq => hcomma (heq ▸ hmem)
  simp only [isNumeric, Bool.or_eq_true, beq_iff_eq] at hc
  simpa [hne, show c ≠ '.' by simpa using hpoint] using hc

theorem isPlain_of_mem_pointed (hbody : ∀ c ∈ body, isNumeric c = true) {c : Char}
    (h : c ∈ pointed body) : IsPlain c := by
  obtain ⟨d, hd, rfl⟩ := List.mem_map.mp h
  obtain ⟨hmem, hpoint⟩ := List.mem_filter.mp hd
  have hnumeric := hbody d hmem
  simp only [isNumeric, Bool.or_eq_true, beq_iff_eq] at hnumeric
  split
  · exact .inr rfl
  · next hcomma =>
    simp only [ne_eq, decide_not, Bool.not_eq_true', decide_eq_false_iff_not] at hpoint
    exact .inl ((hnumeric.resolve_right hcomma).resolve_right hpoint)

theorem ofText_pointed (hbody : ∀ c ∈ body, isNumeric c = true) (negative : Bool) :
    Decimal.ofText (pointed (Decimal.signText negative ++ body)) =
      if body.count ',' ≤ 1 then read negative (wholeOf body) (fractionOf body)
      else none := by
  have hsign : pointed (Decimal.signText negative) = Decimal.signText negative := by
    cases negative <;> rfl
  rw [pointed_append, hsign, ofText_plain negative fun c => isPlain_of_mem_pointed hbody]
  by_cases hcomma : ',' ∈ body
  · obtain ⟨left, right, rfl, hleft⟩ := List.eq_append_cons_of_mem hcomma
    have hdigits : ∀ c ∈ digitsOf left, Text.isDigit c = true := fun c =>
      isDigit_of_mem_digitsOf hbody (by simp) hleft
    have hcount : (left ++ ',' :: right).count ',' = right.count ',' + 1 := by
      rw [List.count_append, List.count_eq_zero_of_not_mem hleft, List.count_cons_self]
      omega
    rw [hcount, pointed_append, pointed_of_not_mem hleft, pointed_comma]
    by_cases hsecond : ',' ∈ right
    · obtain ⟨middle, rest, rfl, hmiddle⟩ := List.eq_append_cons_of_mem hsecond
      have hdigits' : ∀ c ∈ digitsOf middle, Text.isDigit c = true := fun c =>
        isDigit_of_mem_digitsOf hbody (fun c hc => by simp [hc]) hmiddle
      rw [pointed_append, pointed_of_not_mem hmiddle, pointed_comma,
        numberOf_two_points negative hdigits hdigits', if_neg]
      rw [List.count_append, List.count_cons_self]
      omega
    · have hdigits' : ∀ c ∈ digitsOf right, Text.isDigit c = true := fun c =>
        isDigit_of_mem_digitsOf hbody (by simp) hsecond
      rw [if_pos (by rw [List.count_eq_zero_of_not_mem hsecond]),
        pointed_of_not_mem hsecond, numberOf_fraction negative hdigits hdigits',
        wholeOf, fractionOf, Text.partition_append hleft right]
  · have hdigits : ∀ c ∈ digitsOf body, Text.isDigit c = true := fun c =>
      isDigit_of_mem_digitsOf hbody (List.Subset.refl body) hcomma
    rw [if_pos (by rw [List.count_eq_zero_of_not_mem hcomma]; omega),
      pointed_of_not_mem hcomma, numberOf_whole negative hdigits, wholeOf, fractionOf,
      Text.partition_of_not_mem hcomma]
    rfl

end Tokens

/-! ## Selecting a token -/

section Selecting

variable {t : Text}

theorem numericToken_of_skipped {skipped : Text}
    (h : ∀ c ∈ skipped, isNumeric c = false ∧ c ≠ '-') (t : Text) :
    numericToken (skipped ++ t) = numericToken t := by
  induction skipped with
  | nil => rfl
  | cons c skipped ih =>
      obtain ⟨⟨hc, hminus⟩, hrest⟩ := List.forall_mem_cons.mp h
      rw [List.cons_append, numericToken, if_neg (by simp [hc]),
        if_neg (by simp [hminus]), ih hrest]

theorem takeWhile_isNumeric_append (t : Text) {after : Text}
    (h : ∀ c ∈ after.head?, isNumeric c = false) :
    (t ++ after).takeWhile isNumeric = t.takeWhile isNumeric := by
  induction t with
  | nil =>
      cases after with
      | nil => rfl
      | cons c after =>
          rw [List.nil_append, List.takeWhile_cons_of_neg (by simp [h c rfl])]
          rfl
  | cons c t ih =>
      rw [List.cons_append, List.takeWhile_cons, List.takeWhile_cons, ih]

theorem numericToken_append {after : Text}
    (h : ∀ c ∈ after, isNumeric c = false ∧ c ≠ '-') (t : Text) :
    numericToken (t ++ after) = numericToken t := by
  have hhead : ∀ c ∈ after.head?, isNumeric c = false := fun c hc =>
    (h c (List.mem_of_mem_head? hc)).1
  induction t with
  | nil => simpa using numericToken_of_skipped h []
  | cons c t ih =>
      have hnext : (t ++ after).head?.any isNumeric = t.head?.any isNumeric := by
        cases t with
        | nil =>
            cases after with
            | nil => rfl
            | cons d after => simp [hhead d rfl]
        | cons d t => rfl
      rw [List.cons_append, numericToken, numericToken, hnext, ih,
        takeWhile_isNumeric_append t hhead]

theorem not_numeric_of_isSpace {c : Char} (h : Text.isSpace c = true) :
    isNumeric c = false ∧ c ≠ '-' := by
  have hdigit : Text.isDigit c = false := by
    by_contra hdigit
    rw [Text.isSpace_of_isDigit (by simpa using hdigit)] at h
    cases h
  have hne : ∀ d, Text.isSpace d = false → c ≠ d := by
    rintro d hd rfl
    rw [h] at hd
    cases hd
  simp [isNumeric, hdigit, hne '.' (by decide), hne ',' (by decide),
    hne '-' (by decide)]

theorem numericToken_strip (t : Text) :
    numericToken (Text.strip t) = numericToken t := by
  have hleft : numericToken (t.dropWhile Text.isSpace) = numericToken t := by
    conv_rhs => rw [← List.takeWhile_append_dropWhile (p := Text.isSpace) (l := t)]
    exact (numericToken_of_skipped (fun c hc =>
      not_numeric_of_isSpace (List.mem_takeWhile_imp hc)) _).symm
  rw [Text.strip, ← hleft]
  generalize t.dropWhile Text.isSpace = t
  conv_rhs => rw [← List.rdropWhile_append_rtakeWhile (p := Text.isSpace) (l := t)]
  refine (numericToken_append (fun c hc => not_numeric_of_isSpace ?_) _).symm
  exact List.mem_rtakeWhile_imp hc

theorem numericToken_of_numeric {c : Char} (h : ∀ d ∈ c :: t, isNumeric d = true) :
    numericToken (c :: t) = some (c :: t) := by
  obtain ⟨hc, ht⟩ := List.forall_mem_cons.mp h
  rw [numericToken, if_pos hc, List.takeWhile_eq_self_iff.mpr ht]

end Selecting

end RealEstateTracker.Infrastructure
