import RealEstateTracker.Domain.Ports
import RealEstateTracker.Foundation.Outcome

/-!
# Spanish value parsers

Portals write `.` between thousands and `,` before decimals, often with a symbol
or a unit.  A text that cannot be parsed is an absent value.
-/

namespace RealEstateTracker.Infrastructure

open Foundation Domain

def strippedTokens : List Text := ["€".toList, "$".toList, "m²".toList, "m2".toList]

def clean (text : Text) : Text :=
  Text.strip (strippedTokens.foldl (fun cleaned token => Text.remove token cleaned)
    text)

/-- The class `[\d.,]`. -/
def isNumeric (c : Char) : Bool := Text.isDigit c || c == '.' || c == ','

/-- The first match of `-?[\d.,]+`. -/
def numericToken : Text → Option Text
  | [] => none
  | c :: rest =>
      if isNumeric c then some (c :: rest.takeWhile isNumeric)
      else if c = '-' ∧ rest.head?.any isNumeric then
        some ('-' :: rest.takeWhile isNumeric)
      else numericToken rest

/-- Drop the thousands separators and write the decimal separator as a point. -/
def pointed (token : Text) : Text :=
  (token.filter (· ≠ '.')).map fun c => if c = ',' then '.' else c

def parseDecimal (text : Text) : Option Decimal :=
  (numericToken (clean text)).bind fun token => Decimal.ofText (pointed token)

/-- The parsers treat a `ValueError` of a constructor as an unparseable text. -/
def orAbsent {α : Type} : Except PyError α → Except PyError (Option α)
  | .ok value => .ok (some value)
  | .error (.valueError _) | .error (.typeError _) => .ok none
  | .error error => .error error

def parseMoney (text : Text) : Except PyError (Option Money) :=
  match parseDecimal text with
  | none => .ok none
  | some amount => orAbsent (Money.new amount .eur)

def parseArea (text : Text) : Except PyError (Option Area) :=
  match parseDecimal text with
  | none => .ok none
  | some value => orAbsent (Area.new value)

theorem mem_numericToken {text token : Text} (h : numericToken text = some token)
    {c : Char} (hc : c ∈ token) : isNumeric c = true ∨ c = '-' := by
  have hrun : ∀ rest : Text, ∀ c ∈ rest.takeWhile isNumeric, isNumeric c = true :=
    fun rest c hc => List.mem_takeWhile_imp hc
  induction text with
  | nil => simp [numericToken] at h
  | cons d rest ih =>
      unfold numericToken at h
      split at h
      · next hd =>
        obtain rfl := Option.some.inj h
        obtain rfl | hc := List.mem_cons.mp hc
        · exact .inl hd
        · exact .inl (hrun rest c hc)
      · split at h
        · obtain rfl := Option.some.inj h
          obtain rfl | hc := List.mem_cons.mp hc
          · exact .inr rfl
          · exact .inl (hrun rest c hc)
        · exact ih h

theorem asciiLower_ne_n {c : Char} (h : isNumeric c = true ∨ c = '-') :
    Decimal.asciiLower c ≠ 'n' := by
  intro hn
  have hc : c = 'n' ∨ c = 'N' := by
    unfold Decimal.asciiLower at hn
    split at hn
    · next hupper =>
      have hcode : ∀ k, 65 ≤ k → k ≤ 90 → Char.ofNat (k + 32) = 'n' → k = 78 := by
        intro k hlow hhigh
        interval_cases k <;> decide
      exact .inr (Char.ext (UInt32.toNat_inj.mp
        (hcode c.toNat hupper.1 hupper.2 hn)))
    · exact .inl hn
  obtain rfl | rfl := hc <;> revert h <;> decide

theorem isNaN_of_parseDecimal {text : Text} {d : Decimal}
    (h : parseDecimal text = some d) : d.isNaN = false := by
  obtain ⟨token, htoken, hd⟩ := Option.bind_eq_some_iff.mp h
  refine Decimal.isNaN_of_ofText hd fun c hc => ?_
  obtain ⟨e, he, rfl⟩ := List.mem_map.mp hc
  have he := mem_numericToken htoken (List.mem_of_mem_filter he)
  split
  · decide
  · exact asciiLower_ne_n he

theorem exists_ordered_of_number (accepts : Ordering → Bool) {x y : Decimal}
    (hx : x.isNaN = false) (hy : y.isNaN = false) :
    ∃ b, Decimal.ordered accepts x y = .ok b := by
  cases h : Decimal.ordered accepts x y with
  | ok b => exact ⟨b, rfl⟩
  | error signal =>
      have := (Decimal.exists_ordered_iff accepts).mp ⟨signal, h⟩
      simp [hx, hy] at this

theorem exists_parseMoney (text : Text) : ∃ money, parseMoney text = .ok money := by
  unfold parseMoney
  split
  · exact ⟨_, rfl⟩
  · next amount hamount =>
    obtain ⟨b, hb⟩ := exists_ordered_of_number (· == .lt)
      (isNaN_of_parseDecimal hamount) (Decimal.isNaN_ofInt 0)
    cases b with
    | true => exact ⟨none, by rw [Money.new_of_lt _ hb]; rfl⟩
    | false => exact ⟨some _, by rw [Money.new_of_not_lt _ hb]; rfl⟩

theorem exists_parseArea (text : Text) : ∃ area, parseArea text = .ok area := by
  unfold parseArea
  split
  · exact ⟨_, rfl⟩
  · next value hvalue =>
    obtain ⟨b, hb⟩ := exists_ordered_of_number (· != .gt)
      (isNaN_of_parseDecimal hvalue) (Decimal.isNaN_ofInt 0)
    cases b with
    | true => exact ⟨none, by rw [Area.new_of_le hb]; rfl⟩
    | false => exact ⟨some _, by rw [Area.new_of_not_le hb]; rfl⟩

def tooManyDigits (count : Nat) : PyError :=
  .valueError (String.ofList
    ("Exceeds the limit (4300 digits) for integer string conversion: ".toList ++
      "value has ".toList ++ Text.ofNat count ++
      " digits; use sys.set_int_max_str_digits() to increase the limit".toList))

/-- The first match of `\d+`. -/
def firstDigits (text : Text) : Text :=
  (text.dropWhile fun c => !Text.isDigit c).takeWhile Text.isDigit

/-- The first run of digits; `int` raises if it is longer than its limit. -/
def parseInt (text : Text) : Except PyError (Option Int) :=
  match firstDigits (clean text) with
  | [] => .ok none
  | digits =>
      match Text.parseInt digits with
      | some n => .ok (some n)
      | none => .error (tooManyDigits digits.length)

theorem isDigit_of_mem_firstDigits {text : Text} {c : Char}
    (h : c ∈ firstDigits text) : Text.isDigit c = true :=
  List.mem_takeWhile_imp h

theorem parseInt_eq (text : Text) :
    parseInt text = if firstDigits (clean text) = [] then .ok none
      else if Text.maxIntDigits < (firstDigits (clean text)).length then
        .error (tooManyDigits (firstDigits (clean text)).length)
      else .ok (some (Text.digitsValue (firstDigits (clean text)))) := by
  unfold parseInt
  split
  · next hnil => rw [if_pos hnil]
  · next digits hne =>
    have hne : firstDigits (clean text) ≠ [] := fun hnil => hne hnil
    rw [if_neg hne, Text.parseInt_digits hne fun c => isDigit_of_mem_firstDigits]
    by_cases hlong : Text.maxIntDigits < (firstDigits (clean text)).length
    · simp [hlong]
    · simp [hlong]

theorem exists_parseInt_iff (text : Text) : (∃ n, parseInt text = .ok n) ↔
    (firstDigits (clean text)).length ≤ Text.maxIntDigits := by
  rw [parseInt_eq]
  split
  · next hnil => simp [hnil]
  · split
    · next hlong => simpa using hlong
    · next hshort => simpa using hshort

theorem parseInt_nonneg {text : Text} {n : Int}
    (h : parseInt text = .ok (some n)) : 0 ≤ n := by
  rw [parseInt_eq] at h
  split at h
  · simp at h
  · split at h
    · simp at h
    · obtain rfl := Option.some.inj (Except.ok.inj h)
      exact Int.natCast_nonneg _

def trueWords : List Text :=
  ["si".toList, "sí".toList, "true".toList, "yes".toList, "1".toList]

def falseWords : List Text := ["no".toList, "false".toList, "0".toList]

/-! ## Raw values -/

mutual

/-- None of the integers in a value has too many digits for `str`. -/
def Json.isPrintable : Json → Bool
  | .int n => (Text.ofNat n.natAbs).length ≤ Text.maxIntDigits
  | .list items => arePrintable items
  | .obj fields => areFieldsPrintable fields
  | _ => true

def arePrintable : List Json → Bool
  | [] => true
  | item :: rest => Json.isPrintable item && arePrintable rest

def areFieldsPrintable : List (String × Json) → Bool
  | [] => true
  | (_, value) :: rest => Json.isPrintable value && areFieldsPrintable rest

end

def unprintable : PyError :=
  .valueError ("Exceeds the limit (4300 digits) for integer string conversion; " ++
    "use sys.set_int_max_str_digits() to increase the limit")

variable [PythonRuntime]

mutual

/-- `repr(value)`. -/
def Json.pyRepr : Json → Text
  | .null => "None".toList
  | .bool b => if b then "True".toList else "False".toList
  | .int n => Text.ofInt n
  | .float text => text.toList
  | .str s => Text.repr s.toList
  | .list items => '[' :: reprItems items ++ [']']
  | .obj fields => '\x7b' :: reprFields fields ++ ['\x7d']

def reprItems : List Json → Text
  | [] => []
  | [item] => Json.pyRepr item
  | item :: rest => Json.pyRepr item ++ ", ".toList ++ reprItems rest

def reprFields : List (String × Json) → Text
  | [] => []
  | [(key, value)] => Text.repr key.toList ++ ": ".toList ++ Json.pyRepr value
  | (key, value) :: rest =>
      Text.repr key.toList ++ ": ".toList ++ Json.pyRepr value ++
        ", ".toList ++ reprFields rest

end

def Json.text : Json → Text
  | .str s => s.toList
  | value => Json.pyRepr value

/-- `str(value)`. -/
def pyStr (value : Json) : Except PyError Text :=
  if Json.isPrintable value then .ok (Json.text value) else .error unprintable

/-- `bool(value)`. -/
def truthy : Json → Bool
  | .null => false
  | .bool b => b
  | .int n => n != 0
  | .float text => text != "0.0" && text != "-0.0"
  | .str s => s != ""
  | .list items => !items.isEmpty
  | .obj fields => !fields.isEmpty

def normalizeWord (text : Text) : Text := Text.casefold (Text.strip text)

def wordFlag (word : Text) : Option Bool :=
  if word ∈ trueWords then some true
  else if word ∈ falseWords then some false
  else none

/-- A flag that a portal states; what it does not state stays unknown. -/
def parseBool : Option Json → Except PyError (Option Bool)
  | some (.bool b) => .ok (some b)
  | none | some .null => .ok none
  | some value => do
      let text ← pyStr value
      return wordFlag (normalizeWord text)

/-! ## Printable values -/

omit [PythonRuntime] in
theorem isPrintable_of_not_truthy {value : Json} (h : truthy value = false) :
    Json.isPrintable value = true := by
  cases value with
  | null | bool | float | str => rfl
  | int n =>
      obtain rfl : n = 0 := by simpa [truthy] using h
      decide
  | list elements =>
      obtain rfl : elements = [] := by simpa [truthy] using h
      rfl
  | obj fields =>
      obtain rfl : fields = [] := by simpa [truthy] using h
      rfl

theorem pyStr_eq_ok {value : Json} {text : Text} :
    pyStr value = .ok text ↔
      Json.isPrintable value = true ∧ Json.text value = text := by
  unfold pyStr
  split <;> simp_all

theorem exists_pyStr_iff {value : Json} :
    (∃ text, pyStr value = .ok text) ↔ Json.isPrintable value = true := by
  simp [pyStr_eq_ok]

theorem exists_parseBool_iff {value : Option Json} :
    (∃ flag, parseBool value = .ok flag) ↔
      ∀ stated ∈ value, Json.isPrintable stated = true := by
  cases value with
  | none => simp [parseBool]
  | some stated =>
      simp only [Option.mem_def, Option.some.injEq, forall_eq']
      rw [← exists_pyStr_iff]
      have hprintable : ∀ value : Json, Json.isPrintable value = true →
          ∃ text, pyStr value = .ok text := fun value h => exists_pyStr_iff.mpr h
      cases stated with
      | null => exact iff_of_true ⟨none, rfl⟩ (hprintable _ rfl)
      | bool b => exact iff_of_true ⟨some b, rfl⟩ (hprintable _ rfl)
      | int | float | str | list | obj =>
          constructor
          · rintro ⟨flag, hflag⟩
            obtain ⟨text, htext, -⟩ := bind_eq_ok.mp hflag
            exact ⟨text, htext⟩
          · rintro ⟨text, htext⟩
            exact ⟨_, bind_eq_ok.mpr ⟨text, htext, rfl⟩⟩

end RealEstateTracker.Infrastructure
