import RealEstateTracker.Cycle.RunAlertCycle
import RealEstateTracker.Foundation.SelfDelimiting

/-!
# Content hashes

A content hash is the digest of the JSON text of a payload with its keys sorted.
The text can be read back, so two payloads have the same text exactly when they
are equal up to the order of the keys of each object in them.
-/

namespace RealEstateTracker.Cycle

open Foundation Domain

/-! ## Escaped characters -/

def hexDigitValue (c : Char) : Nat :=
  if c.toNat < 58 then c.toNat - 48 else c.toNat - 87

def hexValue (t : Text) : Nat :=
  t.foldl (fun value c => 16 * value + hexDigitValue c) 0

/-- The character of a UTF-16 code unit, or of a pair of surrogates. -/
def unescapeUnit (t : Text) : Char × Text :=
  let code := hexValue (t.take 4)
  if code < 0xd800 ∨ 0xe000 ≤ code then (Char.ofNat code, t.drop 4)
  else
    let low := hexValue ((t.drop 6).take 4)
    (Char.ofNat (0x10000 + (code - 0xd800) * 0x400 + (low - 0xdc00)), t.drop 10)

def unescapeMark (mark : Char) : Char :=
  if mark = 'n' then '\n'
  else if mark = 'r' then '\r'
  else if mark = 't' then '\t'
  else if mark = 'b' then Char.ofNat 8
  else if mark = 'f' then Char.ofNat 12
  else mark

/-- The first character of the text of a JSON string, and what follows it. -/
def unescape : Text → Option (Char × Text)
  | [] => none
  | c :: rest =>
      if c = '\\' then
        match rest with
        | [] => none
        | mark :: rest =>
            some (if mark = 'u' then unescapeUnit rest else (unescapeMark mark, rest))
      else some (c, rest)

theorem hexDigitValue_hexDigit {d : Nat} (h : d < 16) :
    hexDigitValue (Text.hexDigit d) = d := by
  interval_cases d <;> decide

theorem hexDigits_four (n : Nat) : Text.hexDigits 4 n =
    [Text.hexDigit (n / 4096 % 16), Text.hexDigit (n / 256 % 16),
      Text.hexDigit (n / 16 % 16), Text.hexDigit (n % 16)] := by
  simp [Text.hexDigits, List.range_succ]

theorem hexValue_hexDigits {n : Nat} (h : n < 0x10000) :
    hexValue (Text.hexDigits 4 n) = n := by
  simp only [hexDigits_four, hexValue, List.foldl_cons, List.foldl_nil,
    hexDigitValue_hexDigit (Nat.mod_lt _ (by decide : 0 < 16))]
  omega

@[simp] theorem length_hexDigits (width n : Nat) :
    (Text.hexDigits width n).length = width := by
  simp [Text.hexDigits]

theorem unescapeUnit_scalar {n : Nat} (h : n < 0xd800 ∨ 0xe000 ≤ n) (hn : n < 0x10000)
    (rest : Text) :
    unescapeUnit (Text.hexDigits 4 n ++ rest) = (Char.ofNat n, rest) := by
  have htake : (Text.hexDigits 4 n ++ rest).take 4 = Text.hexDigits 4 n :=
    List.take_left' (length_hexDigits 4 n)
  have hdrop : (Text.hexDigits 4 n ++ rest).drop 4 = rest :=
    List.drop_left' (length_hexDigits 4 n)
  simp only [unescapeUnit, htake, hexValue_hexDigits hn, if_pos h, hdrop]

theorem unescapeUnit_surrogates {n : Nat} (h : 0x10000 ≤ n) (hn : n < 0x110000)
    (rest : Text) :
    unescapeUnit (Text.hexDigits 4 (0xd800 + (n - 0x10000) / 0x400) ++ ("\\u".toList ++
      (Text.hexDigits 4 (0xdc00 + (n - 0x10000) % 0x400) ++ rest))) =
        (Char.ofNat n, rest) := by
  have hmark : ∀ t, "\\u".toList ++ t = '\\' :: 'u' :: t := fun _ => rfl
  generalize hhigh : 0xd800 + (n - 0x10000) / 0x400 = high
  generalize hlow : 0xdc00 + (n - 0x10000) % 0x400 = low
  have htake : ∀ t, (Text.hexDigits 4 high ++ t).take 4 = Text.hexDigits 4 high :=
    fun t => List.take_left' (length_hexDigits 4 high)
  have htake' : (Text.hexDigits 4 low ++ rest).take 4 = Text.hexDigits 4 low :=
    List.take_left' (length_hexDigits 4 low)
  have hdrop : ∀ k t, (Text.hexDigits 4 high ++ t).drop (4 + k) = t.drop k := by
    intro k t
    rw [← List.drop_drop, List.drop_left' (length_hexDigits 4 high)]
  have hdrop' : (Text.hexDigits 4 low ++ rest).drop 4 = rest :=
    List.drop_left' (length_hexDigits 4 low)
  have hsurrogate : ¬(high < 0xd800 ∨ 0xe000 ≤ high) := by omega
  have hvalue : 0x10000 + (high - 0xd800) * 0x400 + (low - 0xdc00) = n := by omega
  simp only [unescapeUnit, htake, hexValue_hexDigits (show high < 0x10000 by omega),
    if_neg hsurrogate, hmark, hdrop 2, hdrop 6, List.drop_succ_cons, List.drop_zero, htake',
    hdrop', hexValue_hexDigits (show low < 0x10000 by omega), hvalue]

theorem unescape_unit (t : Text) :
    unescape ("\\u".toList ++ t) = some (unescapeUnit t) := by
  have hmark : "\\u".toList ++ t = '\\' :: 'u' :: t := rfl
  rw [hmark, unescape, if_pos rfl]
  simp only [if_pos]

theorem unescape_jsonEscape (c : Char) (rest : Text) :
    unescape (jsonEscape c ++ rest) = some (c, rest) := by
  have hself : Char.ofNat c.toNat = c := Char.ofNat_toNat c
  have hvalid : c.toNat < 0xd800 ∨ 0xdfff < c.toNat ∧ c.toNat < 0x110000 := c.valid
  unfold jsonEscape
  split_ifs with hquoted hn hr ht hb hf hplain hunit
  · obtain rfl | rfl := hquoted <;> rfl
  · rw [hn]; rfl
  · rw [hr]; rfl
  · rw [ht]; rfl
  · rw [← hself, hb]; rfl
  · rw [← hself, hf]; rfl
  · have hslash : c ≠ '\\' := fun h => hquoted (.inr h)
    simp only [List.cons_append, List.nil_append, unescape, if_neg hslash]
  · rw [List.append_assoc, unescape_unit,
      unescapeUnit_scalar (by omega) hunit rest, hself]
  · have hlarge : 0x10000 ≤ c.toNat ∧ c.toNat < 0x110000 := by omega
    simp only [List.append_assoc]
    rw [unescape_unit, unescapeUnit_surrogates hlarge.1 hlarge.2 rest, hself]

theorem jsonEscape_start (c : Char) :
    ∃ d word, jsonEscape c = d :: word ∧ d ≠ Text.quotationMark := by
  have hslash : '\\' ≠ Text.quotationMark := by decide
  unfold jsonEscape
  split_ifs with hquoted
  iterate 6 exact ⟨_, _, rfl, hslash⟩
  · exact ⟨c, [], rfl, fun h => hquoted (.inl h)⟩
  · exact ⟨_, _, rfl, hslash⟩
  · exact ⟨_, _, rfl, hslash⟩

theorem readsAs_jsonString (Follows : Text → Prop) (s : String) :
    ReadsAs jsonString (fun _ => True) Follows Eq s := by
  intro s' rest rest' _ _ _ heq
  simp only [jsonString, List.cons_append, List.append_assoc, List.nil_append] at heq
  obtain ⟨hall, hrest⟩ := @flatMap_reads _ _ jsonEscape (fun _ => True) (fun _ => True) Eq
    Text.quotationMark _ _ (fun c _ => jsonEscape_start c) (fun _ => trivial)
    (fun _ _ _ => trivial) (fun _ _ => trivial) (fun _ _ => trivial)
    (fun c _ => readsAs_of_decode unescape_jsonEscape c) _ _ (List.cons.inj heq).2
  exact ⟨String.toList_inj.mp (List.forall₂_eq_eq_eq ▸ hall), hrest⟩

/-! ## Payloads -/

/-- The characters of the `repr` of a finite float that is no integer's. -/
def IsFloatText (t : Text) : Prop :=
  (∃ c word, t = c :: word ∧ (c = '-' ∨ Text.isDigit c)) ∧
    (∀ c ∈ t, c ∈ "-+.e".toList ∨ Text.isDigit c) ∧ ∃ c ∈ t, c = '.' ∨ c = 'e'

/-- What `json` reads and Python holds: an object has each key once. -/
inductive WellFormed : Json → Prop
  | null : WellFormed .null
  | bool (b : Bool) : WellFormed (.bool b)
  | int (n : Int) : WellFormed (.int n)
  | float {text : String} (htext : IsFloatText text.toList) : WellFormed (.float text)
  | str (s : String) : WellFormed (.str s)
  | list {items : List Json} (hitems : ∀ item ∈ items, WellFormed item) :
      WellFormed (.list items)
  | obj {fields : List (String × Json)} (hkeys : (fields.map (·.1)).Nodup)
      (hfields : ∀ field ∈ fields, WellFormed field.2) : WellFormed (.obj fields)

/-- Equal up to the order of the keys of every object. -/
inductive SameJson : Json → Json → Prop
  | null : SameJson .null .null
  | bool (b : Bool) : SameJson (.bool b) (.bool b)
  | int (n : Int) : SameJson (.int n) (.int n)
  | float (text : String) : SameJson (.float text) (.float text)
  | str (s : String) : SameJson (.str s) (.str s)
  | list {items items' : List Json} (hlength : items.length = items'.length)
      (hitems : ∀ pair ∈ items.zip items', SameJson pair.1 pair.2) :
      SameJson (.list items) (.list items')
  | obj {fields fields' : List (String × Json)}
      (hkeys : ∀ key, key ∈ fields.map (·.1) ↔ key ∈ fields'.map (·.1))
      (hfields : ∀ key value value', (key, value) ∈ fields → (key, value') ∈ fields' →
        SameJson value value') :
      SameJson (.obj fields) (.obj fields')

theorem dumpItems_eq (items : List Json) : dumpItems items = items.map jsonDumps := by
  induction items with
  | nil => rfl
  | cons item items ih => rw [dumpItems, ih, List.map_cons]

def dumpField (field : String × Json) : String × Text := (field.1, jsonDumps field.2)

theorem dumpFields_eq (fields : List (String × Json)) :
    dumpFields fields = fields.map dumpField := by
  induction fields with
  | nil => rfl
  | cons field fields ih => rw [dumpFields, ih, List.map_cons, dumpField]

theorem commaSeparated_eq (items : List Text) :
    commaSeparated items = ", ".toList.intercalate items := by
  induction items with
  | nil => rfl
  | cons item items ih =>
      cases items with
      | nil => simp [commaSeparated, List.intercalate]
      | cons next items =>
          rw [commaSeparated, ih, List.intercalate_cons_cons]
          exact List.cons_ne_nil _ _

def sortFields (fields : List (String × Json)) : List (String × Json) :=
  fields.insertionSort fun a b => a.1 ≤ b.1

def fieldText (field : String × Json) : Text :=
  jsonString field.1 ++ (": ".toList ++ jsonDumps field.2)

theorem jsonObject_dumpFields (fields : List (String × Json)) :
    jsonObject (dumpFields fields) =
      '\x7b' :: ", ".toList.intercalate ((sortFields fields).map fieldText) ++ ['\x7d'] := by
  have hsort : (fields.map dumpField).insertionSort (fun a b => a.1 ≤ b.1) =
      (sortFields fields).map dumpField :=
    (List.map_insertionSort _ _ dumpField fields fun _ _ _ _ => Iff.rfl).symm
  rw [jsonObject, commaSeparated_eq, dumpFields_eq, hsort, List.map_map]
  simp only [Function.comp_def, dumpField, List.append_assoc]
  rfl

/-! ## Reading a payload back -/

def IsNumeral (c : Char) : Prop := c ∈ "-+.e".toList ∨ Text.isDigit c

instance : DecidablePred IsNumeral :=
  fun c => inferInstanceAs (Decidable (c ∈ "-+.e".toList ∨ Text.isDigit c))

/-- A numeral ends there. -/
def EndsNumeral (rest : Text) : Prop := ∀ c ∈ rest.head?, ¬IsNumeral c

inductive Shape where
  | null
  | bool (b : Bool)
  | number
  | str
  | list
  | obj

def shapeOf : Json → Shape
  | .null => .null
  | .bool b => .bool b
  | .int _ | .float _ => .number
  | .str _ => .str
  | .list _ => .list
  | .obj _ => .obj

/-- What a text that begins with the character may be the text of. -/
def shapeAt (c : Char) : Option Shape :=
  if c = 'n' then some .null
  else if c = 't' then some (.bool true)
  else if c = 'f' then some (.bool false)
  else if c = Text.quotationMark then some .str
  else if c = '[' then some .list
  else if c = '\x7b' then some .obj
  else if c = '-' ∨ Text.isDigit c then some .number
  else none

theorem isNumeral_of_mem_ofInt {n : Int} {c : Char} (h : c ∈ Text.ofInt n) :
    c = '-' ∨ Text.isDigit c := by
  cases n with
  | ofNat n => exact .inr (Text.isDigit_of_mem_ofNat h)
  | negSucc n =>
      rcases List.mem_cons.mp h with rfl | h
      · exact .inl rfl
      · exact .inr (Text.isDigit_of_mem_ofNat h)

theorem ofInt_injective : Function.Injective Text.ofInt := by
  have hnat : Function.Injective Text.ofNat := by
    intro m n h
    rw [← Text.digitsValue_ofNat m, h, Text.digitsValue_ofNat]
  have hsign : ∀ m n, Text.ofNat m ≠ '-' :: Text.ofNat n := by
    intro m n h
    have hdigit : Text.isDigit '-' = true :=
      Text.isDigit_of_mem_ofNat (n := m) (h ▸ List.mem_cons_self)
    exact absurd hdigit (by decide)
  intro m n h
  cases m with
  | ofNat m =>
      cases n with
      | ofNat n => exact congrArg Int.ofNat (hnat h)
      | negSucc n => exact absurd h (hsign m (n + 1))
  | negSucc m =>
      cases n with
      | ofNat n => exact absurd h.symm (hsign n (m + 1))
      | negSucc n =>
          have hsucc := hnat (List.cons.inj h).2
          exact congrArg Int.negSucc (Nat.succ.inj hsucc)

theorem shapeAt_number {c : Char} (h : c = '-' ∨ Text.isDigit c) :
    shapeAt c = some .number := by
  have hne : ∀ d : Char, d ≠ '-' → Text.isDigit d = false → c ≠ d := by
    rintro d hsign hdigit rfl
    rcases h with rfl | h
    · exact hsign rfl
    · rw [hdigit] at h
      cases h
  unfold shapeAt
  rw [if_neg (hne _ (by decide) (by decide)), if_neg (hne _ (by decide) (by decide)),
    if_neg (hne _ (by decide) (by decide)), if_neg (hne _ (by decide) (by decide)),
    if_neg (hne _ (by decide) (by decide)), if_neg (hne _ (by decide) (by decide)),
    if_pos h]

theorem jsonDumps_start {value : Json} (h : WellFormed value) :
    ∃ c word, jsonDumps value = c :: word ∧ shapeAt c = some (shapeOf value) := by
  cases h with
  | null => exact ⟨_, _, rfl, rfl⟩
  | bool b => cases b <;> exact ⟨_, _, rfl, rfl⟩
  | int n =>
      cases hn : Text.ofInt n with
      | nil =>
          cases n with
          | ofNat n => exact absurd hn (Text.ofNat_ne_nil n)
          | negSucc n => cases hn
      | cons c word =>
          exact ⟨c, word, hn, shapeAt_number
            (isNumeral_of_mem_ofInt (n := n) (hn ▸ List.mem_cons_self))⟩
  | float htext =>
      obtain ⟨⟨c, word, hword, hstart⟩, -⟩ := htext
      exact ⟨c, word, hword, shapeAt_number hstart⟩
  | str s => exact ⟨_, _, rfl, rfl⟩
  | list => exact ⟨_, _, rfl, rfl⟩
  | obj => exact ⟨_, _, rfl, rfl⟩

theorem shapeOf_eq {value value' : Json} {rest rest' : Text} (h : WellFormed value)
    (h' : WellFormed value') (heq : jsonDumps value ++ rest = jsonDumps value' ++ rest') :
    shapeOf value = shapeOf value' := by
  obtain ⟨c, word, hword, hshape⟩ := jsonDumps_start h
  obtain ⟨c', word', hword', hshape'⟩ := jsonDumps_start h'
  rw [hword, hword'] at heq
  rw [(List.cons.inj heq).1] at hshape
  exact Option.some.inj (hshape.symm.trans hshape')

theorem jsonDumps_start_ne {value : Json} (h : WellFormed value) {close : Char}
    (hclose : shapeAt close = none) : ∃ c word, jsonDumps value = c :: word ∧ c ≠ close := by
  obtain ⟨c, word, hword, hshape⟩ := jsonDumps_start h
  refine ⟨c, word, hword, ?_⟩
  rintro rfl
  rw [hclose] at hshape
  cases hshape

theorem endsNumeral_cons {c : Char} (h : ¬IsNumeral c) (rest : Text) :
    EndsNumeral (c :: rest) := by
  intro d hd
  obtain rfl := Option.some.inj hd
  exact h

theorem number_reads {text text' rest rest' : Text} (htext : ∀ c ∈ text, IsNumeral c)
    (htext' : ∀ c ∈ text', IsNumeral c) (hrest : EndsNumeral rest)
    (hrest' : EndsNumeral rest') (heq : text ++ rest = text' ++ rest') :
    text = text' ∧ rest = rest' :=
  append_inj_of_alphabet htext htext' hrest hrest' heq

theorem isNumeral_ofInt {n : Int} {c : Char} (h : c ∈ Text.ofInt n) : IsNumeral c := by
  rcases isNumeral_of_mem_ofInt h with rfl | h
  · exact .inl (by decide)
  · exact .inr h

theorem ofInt_ne_floatText {n : Int} {t : Text} (h : IsFloatText t) : Text.ofInt n ≠ t := by
  rintro rfl
  obtain ⟨-, -, c, hc, hmark⟩ := h
  have hplain := isNumeral_of_mem_ofInt hc
  rcases hmark with rfl | rfl
  · exact absurd hplain (by decide)
  · exact absurd hplain (by decide)

theorem exists_of_forall₂ {α β : Type} {R : α → β → Prop} {as : List α} {bs : List β} {a : α}
    (h : List.Forall₂ R as bs) (ha : a ∈ as) : ∃ b ∈ bs, R a b := by
  induction h with
  | nil => cases ha
  | cons hab _ ih =>
      rcases List.mem_cons.mp ha with rfl | ha
      · exact ⟨_, .head _, hab⟩
      · obtain ⟨b, hb, hrel⟩ := ih ha
        exact ⟨b, .tail _ hb, hrel⟩

theorem sameJson_list {items items' : List Json} (h : List.Forall₂ SameJson items items') :
    SameJson (.list items) (.list items') :=
  .list h.length_eq fun _ hpair => List.forall₂_zip h hpair

theorem sameJson_obj {fields fields' : List (String × Json)}
    (hkeys : (fields'.map (·.1)).Nodup)
    (h : List.Forall₂ (fun a b => a.1 = b.1 ∧ SameJson a.2 b.2) (sortFields fields)
      (sortFields fields')) : SameJson (.obj fields) (.obj fields') := by
  have hmem : ∀ fields : List (String × Json), ∀ field,
      field ∈ sortFields fields ↔ field ∈ fields := fun _ _ => List.mem_insertionSort _
  have hsame : (sortFields fields).map (·.1) = (sortFields fields').map (·.1) := by
    rw [← List.forall₂_eq_eq_eq, List.forall₂_map_left_iff, List.forall₂_map_right_iff]
    exact h.imp fun _ _ hab => hab.1
  refine .obj (fun key => ?_) fun key value value' hvalue hvalue' => ?_
  · have hsorted : ∀ fields : List (String × Json),
        key ∈ fields.map (·.1) ↔ key ∈ (sortFields fields).map (·.1) := by
      intro fields
      simp only [List.mem_map, hmem]
    rw [hsorted fields, hsorted fields', hsame]
  · obtain ⟨⟨key', other⟩, hother, rfl, hsame⟩ :=
      exists_of_forall₂ h ((hmem _ _).mpr hvalue)
    have heq := List.inj_on_of_nodup_map hkeys hvalue' ((hmem _ _).mp hother) rfl
    obtain rfl := congrArg Prod.snd heq
    exact hsame

theorem forall_mem_sortFields {fields : List (String × Json)}
    {P : String × Json → Prop} (h : ∀ field ∈ fields, P field) :
    ∀ field ∈ sortFields fields, P field :=
  fun field hfield => h field ((List.mem_insertionSort _).mp hfield)

/--
The text of a payload determines it up to the order of keys, whatever follows that
does not prolong a number.
-/
theorem readsAs_jsonDumps {value : Json} (h : WellFormed value) :
    ReadsAs jsonDumps WellFormed EndsNumeral SameJson value := by
  have hcomma : ∀ rest, EndsNumeral (',' :: rest) := endsNumeral_cons (by decide)
  induction h with
  | null =>
      intro value' rest rest' h' _ _ heq
      have hshape := shapeOf_eq .null h' heq
      cases h' with
      | null => exact ⟨.null, List.append_cancel_left heq⟩
      | _ => cases hshape
  | bool b =>
      intro value' rest rest' h' _ _ heq
      have hshape := shapeOf_eq (.bool b) h' heq
      cases h' with
      | bool b' =>
          obtain rfl := Shape.bool.inj hshape
          exact ⟨.bool b, List.append_cancel_left heq⟩
      | _ => cases hshape
  | int n =>
      intro value' rest rest' h' hrest hrest' heq
      have hshape := shapeOf_eq (.int n) h' heq
      cases h' with
      | int n' =>
          obtain ⟨htext, hrests⟩ := number_reads (fun _ => isNumeral_ofInt)
            (fun _ => isNumeral_ofInt) hrest hrest' heq
          obtain rfl := ofInt_injective htext
          exact ⟨.int n, hrests⟩
      | float htext' =>
          obtain ⟨htext, -⟩ := number_reads (fun _ => isNumeral_ofInt) htext'.2.1
            hrest hrest' heq
          exact absurd htext (ofInt_ne_floatText htext')
      | _ => cases hshape
  | @float text htext =>
      intro value' rest rest' h' hrest hrest' heq
      have hshape := shapeOf_eq (.float htext) h' heq
      cases h' with
      | int n' =>
          obtain ⟨hsame, -⟩ := number_reads htext.2.1 (fun _ => isNumeral_ofInt)
            hrest hrest' heq
          exact absurd hsame.symm (ofInt_ne_floatText htext)
      | float htext' =>
          obtain ⟨hsame, hrests⟩ := number_reads htext.2.1 htext'.2.1 hrest hrest' heq
          obtain rfl := String.toList_inj.mp hsame
          exact ⟨.float text, hrests⟩
      | _ => cases hshape
  | str s =>
      intro value' rest rest' h' hrest hrest' heq
      have hshape := shapeOf_eq (.str s) h' heq
      cases h' with
      | str s' =>
          obtain ⟨rfl, hrests⟩ := readsAs_jsonString EndsNumeral s s' rest rest' trivial
            hrest hrest' heq
          exact ⟨.str s, hrests⟩
      | _ => cases hshape
  | @list items hitems ih =>
      intro value' rest rest' h' hrest hrest' heq
      have hshape := shapeOf_eq (.list hitems) h' heq
      cases h' with
      | @list items' hitems' =>
          simp only [jsonDumps, dumpItems_eq, commaSeparated_eq, List.cons_append,
            List.append_assoc, List.nil_append] at heq
          obtain ⟨hall, hrests⟩ := intercalate_reads
            (by decide : ',' ≠ ']') (fun item hitem => jsonDumps_start_ne hitem (by decide))
            (endsNumeral_cons (by decide)) hcomma hitems hitems' ih (List.cons.inj heq).2
          exact ⟨sameJson_list hall, hrests⟩
      | _ => cases hshape
  | @obj fields hkeys hfields ih =>
      intro value' rest rest' h' hrest hrest' heq
      have hshape := shapeOf_eq (.obj hkeys hfields) h' heq
      cases h' with
      | @obj fields' hkeys' hfields' =>
          simp only [jsonDumps, jsonObject_dumpFields, List.cons_append,
            List.append_assoc, List.nil_append] at heq
          obtain ⟨hall, hrests⟩ := intercalate_reads
            (by decide : ',' ≠ '\x7d') (fun field _ => ⟨Text.quotationMark, _, rfl, by decide⟩)
            (endsNumeral_cons (by decide)) hcomma (forall_mem_sortFields hfields)
            (forall_mem_sortFields hfields')
            (forall_mem_sortFields fun field hfield => readsAs_pair
              (readsAs_jsonString _ field.1) ((ih field hfield).after ": ".toList))
            (List.cons.inj heq).2
          exact ⟨sameJson_obj hkeys' hall, hrests⟩
      | _ => cases hshape

/-! ## Payloads with one text -/

theorem insertionSort_eq_of_perm {fields fields' : List (String × Text)}
    (hkeys : (fields.map (·.1)).Nodup) (h : fields.Perm fields') :
    fields.insertionSort (fun a b => a.1 ≤ b.1) =
      fields'.insertionSort (fun a b => a.1 ≤ b.1) := by
  have hperm : (fields.insertionSort fun a b => a.1 ≤ b.1).Perm
      (fields'.insertionSort fun a b => a.1 ≤ b.1) :=
    (List.perm_insertionSort _ _).trans (h.trans (List.perm_insertionSort _ _).symm)
  refine hperm.eq_of_pairwise (fun a b ha hb hab hba => ?_)
    (List.pairwise_insertionSort _ _) (List.pairwise_insertionSort _ _)
  have ha' := (List.mem_insertionSort _).mp ha
  have hb' := h.mem_iff.mpr ((List.mem_insertionSort _).mp hb)
  exact List.inj_on_of_nodup_map hkeys ha' hb' (le_antisymm hab hba)

theorem keys_dumpFields (fields : List (String × Json)) :
    (fields.map dumpField).map (·.1) = fields.map (·.1) := by
  rw [List.map_map]
  rfl

theorem mem_dumpFields_of_same {fields fields' : List (String × Json)}
    (hkeys : ∀ key ∈ fields.map (·.1), key ∈ fields'.map (·.1))
    (htexts : ∀ key value value', (key, value) ∈ fields → (key, value') ∈ fields' →
      jsonDumps value = jsonDumps value') {field : String × Text}
    (h : field ∈ fields.map dumpField) : field ∈ fields'.map dumpField := by
  obtain ⟨⟨key, value⟩, hmem, rfl⟩ := List.mem_map.mp h
  obtain ⟨⟨key', value'⟩, hmem', rfl⟩ :=
    List.mem_map.mp (hkeys key (List.mem_map_of_mem hmem))
  refine List.mem_map.mpr ⟨_, hmem', ?_⟩
  rw [dumpField, dumpField, htexts _ value value' hmem hmem']

theorem jsonDumps_eq_of_same {value value' : Json} (hsame : SameJson value value')
    (h : WellFormed value) (h' : WellFormed value') : jsonDumps value = jsonDumps value' := by
  induction hsame with
  | null => rfl
  | bool b => rfl
  | int n => rfl
  | float text => rfl
  | str s => rfl
  | @list items items' hlength hitems ih =>
      cases h with
      | list h =>
          cases h' with
          | list h' =>
              have htexts : List.Forall₂ (fun a b => jsonDumps a = jsonDumps b) items
                  items' := by
                refine List.forall₂_iff_zip.mpr ⟨hlength, fun {a b} hpair => ?_⟩
                obtain ⟨ha, hb⟩ := List.of_mem_zip hpair
                exact ih _ hpair (h a ha) (h' b hb)
              have hitems : items.map jsonDumps = items'.map jsonDumps := by
                rw [← List.forall₂_eq_eq_eq, List.forall₂_map_left_iff,
                  List.forall₂_map_right_iff]
                exact htexts
              rw [jsonDumps, jsonDumps, dumpItems_eq, dumpItems_eq, hitems]
  | @obj fields fields' hkeys hfields ih =>
      cases h with
      | obj hnodup h =>
          cases h' with
          | obj hnodup' h' =>
              have htexts : ∀ key value value', (key, value) ∈ fields →
                  (key, value') ∈ fields' → jsonDumps value = jsonDumps value' :=
                fun key value value' hvalue hvalue' =>
                  ih key value value' hvalue hvalue' (h _ hvalue) (h' _ hvalue')
              rw [← keys_dumpFields] at hnodup hnodup'
              have hperm : (fields.map dumpField).Perm (fields'.map dumpField) := by
                refine (List.perm_ext_iff_of_nodup hnodup.of_map hnodup'.of_map).mpr
                  fun field => ⟨?_, ?_⟩
                · exact mem_dumpFields_of_same (fun key hkey => (hkeys key).mp hkey) htexts
                · exact mem_dumpFields_of_same (fun key hkey => (hkeys key).mpr hkey)
                    fun key value value' hvalue hvalue' =>
                      (htexts key value' value hvalue' hvalue).symm
              rw [jsonDumps, jsonDumps, jsonObject, jsonObject, dumpFields_eq,
                dumpFields_eq, insertionSort_eq_of_perm hnodup hperm]

/-! ## Equal hashes -/

/-- What a scraper hands over is JSON, with each key of an object once. -/
def WellFormedPayload (raw : RawPayload) : Prop := WellFormed (.obj raw.entries)

def SamePayload (raw raw' : RawPayload) : Prop :=
  SameJson (.obj raw.entries) (.obj raw'.entries)

theorem jsonDumps_injective {value value' : Json} (h : WellFormed value)
    (h' : WellFormed value') :
    jsonDumps value = jsonDumps value' ↔ SameJson value value' := by
  constructor
  · intro heq
    have hend : EndsNumeral [] := fun _ hc => by cases hc
    exact (readsAs_jsonDumps h value' [] [] h' hend hend (by rw [heq])).1
  · exact fun hsame => jsonDumps_eq_of_same hsame h h'

theorem samePayload_iff {raw raw' : RawPayload} (h : WellFormedPayload raw)
    (h' : WellFormedPayload raw') : SamePayload raw raw' ↔
      jsonObject (dumpFields raw.entries) = jsonObject (dumpFields raw'.entries) := by
  rw [SamePayload, ← jsonDumps_injective h h', jsonDumps, jsonDumps]

section Digests

variable [runtime : PythonRuntime]

theorem contentHash_inj (hsha : Function.Injective runtime.sha256)
    {raw raw' : RawPayload} : contentHash raw = contentHash raw' ↔
      jsonObject (dumpFields raw.entries) = jsonObject (dumpFields raw'.entries) := by
  rw [contentHash, contentHash, hsha.eq_iff, String.ofList_inj]

/--
Two payloads have the same content hash exactly when they are equal up to the order of
the keys of the objects in them, if the digest never collides.
-/
theorem contentHash_eq_iff (hsha : Function.Injective runtime.sha256)
    {raw raw' : RawPayload} (h : WellFormedPayload raw) (h' : WellFormedPayload raw') :
    contentHash raw = contentHash raw' ↔ SamePayload raw raw' :=
  (contentHash_inj hsha).trans (samePayload_iff h h').symm

end Digests

/-! ## A payload with a title -/

def titledPayload (title : Json) : RawPayload := Dict.empty.set "titulo" title

theorem wellFormed_titledPayload {title : Json} (h : WellFormed title) :
    WellFormedPayload (titledPayload title) := by
  refine .obj (titledPayload title).keysNodup fun field hfield => ?_
  obtain rfl : field = ("titulo", title) := List.mem_singleton.mp hfield
  exact h

theorem wellFormed_counts {key key' : String} (hne : key ≠ key') (n n' : Int) :
    WellFormed (.obj [(key, .int n), (key', .int n')]) := by
  refine .obj (by simpa using hne) fun field hfield => ?_
  rcases List.mem_cons.mp hfield with rfl | hfield
  · exact .int n
  · rw [List.mem_singleton.mp hfield]
    exact .int n'

theorem contentHash_eq_iff_shuffled :
    let raw := titledPayload (.obj [("a", .int 1), ("b", .int 2)])
    let raw' := titledPayload (.obj [("b", .int 2), ("a", .int 1)])
    @contentHash .plain raw = @contentHash .plain raw' ↔ SamePayload raw raw' :=
  @contentHash_eq_iff .plain (fun _ _ h => h) _ _
    (wellFormed_titledPayload (wellFormed_counts (by decide) 1 2))
    (wellFormed_titledPayload (wellFormed_counts (by decide) 2 1))

end RealEstateTracker.Cycle
