import Mathlib.Data.List.Basic
import Mathlib.Data.List.DropRight
import Mathlib.Data.Nat.Digits.Lemmas
import Mathlib.Tactic

/-!
# Python text

The string operations that the source uses, on lists of code points.  Tables
are exact for the code points up to U+00FF (and for white space, decimal digits
and the combining block U+0300 to U+036F everywhere); beyond them the Unicode
database is a parameter, so results hold whatever it says there.
-/

namespace RealEstateTracker.Foundation

abbrev Text := List Char

/--
The parts of the Python runtime that no definition here computes: the Unicode
database above U+00FF and the digests of `hashlib` and `uuid`.
-/
class PythonRuntime where
  nfkdBeyond : Char → Text
  combiningBeyond : Char → Bool
  casefoldBeyond : Char → Text
  lowerBeyond : Char → Text
  upperBeyond : Char → Text
  printableBeyond : Char → Bool
  sha256 : String → String
  uuid5 : String → String

/-- A runtime whose characters above U+00FF have no mappings and whose digests keep their text. -/
@[reducible] def PythonRuntime.plain : PythonRuntime where
  nfkdBeyond c := [c]
  combiningBeyond _ := false
  casefoldBeyond c := [c]
  lowerBeyond c := [c]
  upperBeyond c := [c]
  printableBeyond _ := true
  sha256 text := text
  uuid5 text := text

theorem append_cons_inj {α : Type} {c : α} {left right left' right' : List α}
    (hleft : c ∉ left) (hleft' : c ∉ left')
    (h : left ++ c :: right = left' ++ c :: right') :
    left = left' ∧ right = right' := by
  induction left generalizing left' with
  | nil =>
      cases left' with
      | nil => exact ⟨rfl, (List.cons.inj h).2⟩
      | cons d left' => exact absurd (.head _) ((List.cons.inj h).1 ▸ hleft')
  | cons d left ih =>
      cases left' with
      | nil => exact absurd (.head _) ((List.cons.inj h).1 ▸ hleft)
      | cons d' left' =>
          obtain ⟨rfl, htail⟩ := List.cons.inj h
          obtain ⟨rfl, rfl⟩ := ih (fun hmem => hleft (.tail _ hmem))
            (fun hmem => hleft' (.tail _ hmem)) htail
          exact ⟨rfl, rfl⟩

namespace Text

/-! ## White space and digits -/

def spaceCodes : List Nat :=
  [0x9, 0xa, 0xb, 0xc, 0xd, 0x1c, 0x1d, 0x1e, 0x1f, 0x20, 0x85, 0xa0, 0x1680,
    0x2000, 0x2001, 0x2002, 0x2003, 0x2004, 0x2005, 0x2006, 0x2007, 0x2008,
    0x2009, 0x200a, 0x2028, 0x2029, 0x202f, 0x205f, 0x3000]

def isSpace (c : Char) : Bool := spaceCodes.contains c.toNat

/-- The code points of the decimal digit zero in every script that has one. -/
def zeroCodes : List Nat :=
  [0x30, 0x660, 0x6f0, 0x7c0, 0x966, 0x9e6, 0xa66, 0xae6, 0xb66, 0xbe6, 0xc66,
    0xce6, 0xd66, 0xde6, 0xe50, 0xed0, 0xf20, 0x1040, 0x1090, 0x17e0, 0x1810,
    0x1946, 0x19d0, 0x1a80, 0x1a90, 0x1b50, 0x1bb0, 0x1c40, 0x1c50, 0xa620,
    0xa8d0, 0xa900, 0xa9d0, 0xa9f0, 0xaa50, 0xabf0, 0xff10, 0x104a0, 0x10d30,
    0x11066, 0x110f0, 0x11136, 0x111d0, 0x112f0, 0x11450, 0x114d0, 0x11650,
    0x116c0, 0x11730, 0x118e0, 0x11950, 0x11c50, 0x11d50, 0x11da0, 0x11f50,
    0x16a60, 0x16ac0, 0x16b50, 0x1d7ce, 0x1d7d8, 0x1d7e2, 0x1d7ec, 0x1d7f6,
    0x1e140, 0x1e2f0, 0x1e4f0, 0x1e950, 0x1fbf0]

/-- The value of a decimal digit of any script. -/
def digit? (c : Char) : Option Nat :=
  (zeroCodes.find? fun code => code ≤ c.toNat && c.toNat < code + 10).map
    fun code => c.toNat - code

/-- The digits that are not decimal: superscripts, circled numbers and the like. -/
def digitRanges : List (Nat × Nat) :=
  [(0xb2, 0xb3), (0xb9, 0xb9), (0x1369, 0x1371), (0x19da, 0x19da),
    (0x2070, 0x2070), (0x2074, 0x2079), (0x2080, 0x2089), (0x2460, 0x2468),
    (0x2474, 0x247c), (0x2488, 0x2490), (0x24ea, 0x24ea), (0x24f5, 0x24fd),
    (0x24ff, 0x24ff), (0x2776, 0x277e), (0x2780, 0x2788), (0x278a, 0x2792),
    (0x10a40, 0x10a43), (0x10e60, 0x10e68), (0x11052, 0x1105a),
    (0x1f100, 0x1f10a)]

/-- `t.isdigit()` for a nonempty text. -/
def allDigits (t : Text) : Bool :=
  t.all fun c => (digit? c).isSome ||
    digitRanges.any fun (low, high) => low ≤ c.toNat && c.toNat ≤ high

def digitChar (d : Nat) : Char := Char.ofNat (48 + d)

def isDigit (c : Char) : Bool := (digit? c).isSome

def digitsValue (t : Text) : Nat :=
  t.foldl (fun value c => 10 * value + (digit? c).getD 0) 0

/-- `str(n)`. -/
def ofNat (n : Nat) : Text :=
  if n = 0 then ['0'] else (Nat.digits 10 n).reverse.map digitChar

def ofInt : Int → Text
  | .ofNat n => ofNat n
  | .negSucc n => '-' :: ofNat (n + 1)

theorem digit?_digitChar {d : Nat} (h : d < 10) :
    digit? (digitChar d) = some d := by
  interval_cases d <;> decide

theorem isDigit_digitChar {d : Nat} (h : d < 10) :
    isDigit (digitChar d) = true := by
  simp [isDigit, digit?_digitChar h]

theorem ofNat_ne_nil (n : Nat) : ofNat n ≠ [] := by
  by_cases hn : n = 0
  · simp [ofNat, hn]
  · simp [ofNat, hn, Nat.digits_ne_nil_iff_ne_zero]

theorem exists_digitChar_of_mem_ofNat {n : Nat} {c : Char}
    (h : c ∈ ofNat n) : ∃ d < 10, c = digitChar d := by
  by_cases hn : n = 0
  · rw [ofNat, if_pos hn, List.mem_singleton] at h
    exact ⟨0, by decide, by rw [h]; decide⟩
  · rw [ofNat, if_neg hn, List.mem_map] at h
    obtain ⟨d, hd, rfl⟩ := h
    exact ⟨d, Nat.digits_lt_base (by decide) (List.mem_reverse.mp hd), rfl⟩

theorem isDigit_of_mem_ofNat {n : Nat} {c : Char} (h : c ∈ ofNat n) :
    isDigit c = true := by
  obtain ⟨d, hd, rfl⟩ := exists_digitChar_of_mem_ofNat h
  exact isDigit_digitChar hd

theorem digitsValue_append_singleton (t : Text) (c : Char) :
    digitsValue (t ++ [c]) = 10 * digitsValue t + (digit? c).getD 0 := by
  simp [digitsValue, List.foldl_append]

private theorem digitsValue_map_digitChar {digits : List Nat}
    (h : ∀ d ∈ digits, d < 10) :
    digitsValue (digits.reverse.map digitChar) = Nat.ofDigits 10 digits := by
  induction digits with
  | nil => rfl
  | cons d digits ih =>
      rw [List.reverse_cons, List.map_append, List.map_singleton,
        digitsValue_append_singleton, ih fun e he => h e (.tail d he),
        digit?_digitChar (h d (.head digits)), Nat.ofDigits_cons]
      simp only [Option.getD_some]
      omega

theorem digitsValue_ofNat (n : Nat) : digitsValue (ofNat n) = n := by
  by_cases hn : n = 0
  · subst hn
    decide
  · rw [ofNat, if_neg hn, digitsValue_map_digitChar fun d hd =>
      Nat.digits_lt_base (by decide) hd, Nat.ofDigits_digits]

theorem digitsValue_zeros_append (n : Nat) (t : Text) :
    digitsValue (List.replicate n '0' ++ t) = digitsValue t := by
  induction n with
  | zero => rfl
  | succ n ih =>
      rw [← ih, List.replicate_succ]
      rfl

/-- Digits separated by single underscores, as in a Python integer literal. -/
def underscored : Text → Option Text
  | [] => none
  | [c] => if isDigit c then some [c] else none
  | c :: '_' :: rest =>
      if isDigit c then (underscored rest).map (c :: ·) else none
  | c :: d :: rest =>
      if isDigit c then (underscored (d :: rest)).map (c :: ·) else none

/-- The white space that `int()` ignores around a number. -/
def isIntSpace (c : Char) : Bool :=
  isSpace c && (c.toNat < 0x1c || 0x1f < c.toNat)

/-- The interpreter's limit on the digits that `int()` reads. -/
def maxIntDigits : Nat := 4300

/-- `int(t)`; `none` stands for its `ValueError`. -/
def parseInt (t : Text) : Option Int :=
  let t := (t.dropWhile isIntSpace).rdropWhile isIntSpace
  let (negative, body) : Bool × Text :=
    match t with
    | '-' :: body => (true, body)
    | '+' :: body => (false, body)
    | body => (false, body)
  match underscored body with
  | none => none
  | some digits =>
      if maxIntDigits < digits.length then none
      else
        let value : Int := digitsValue digits
        some (if negative then -value else value)

theorem not_isDigit_of_disjoint {codes : List Nat}
    (hdisjoint : ∀ code ∈ zeroCodes, ∀ other ∈ codes,
      ¬(code ≤ other ∧ other < code + 10)) {c : Char} (h : isDigit c = true) :
    c.toNat ∉ codes := by
  intro hmem
  obtain ⟨d, hd⟩ := Option.isSome_iff_exists.mp h
  obtain ⟨code, hcode, -⟩ := Option.map_eq_some_iff.mp hd
  have hrange := List.find?_some hcode
  simp only [Bool.and_eq_true, decide_eq_true_eq] at hrange
  exact hdisjoint code (List.mem_of_find?_eq_some hcode) _ hmem hrange

theorem isSpace_of_isDigit {c : Char} (h : isDigit c = true) : isSpace c = false := by
  have hnot := @not_isDigit_of_disjoint spaceCodes (by decide) c h
  simpa [isSpace] using hnot

theorem isIntSpace_of_isDigit {c : Char} (h : isDigit c = true) :
    isIntSpace c = false := by
  rw [isIntSpace, isSpace_of_isDigit h, Bool.false_and]

theorem underscored_eq_self {t : Text} (hne : t ≠ [])
    (h : ∀ c ∈ t, isDigit c = true) : underscored t = some t := by
  induction t with
  | nil => exact absurd rfl hne
  | cons c rest ih =>
      obtain ⟨hc, hrest⟩ := List.forall_mem_cons.mp h
      cases rest with
      | nil => simp [underscored, hc]
      | cons d rest =>
          have hd : d ≠ '_' := by
            rintro rfl
            exact absurd (hrest _ (.head _)) (by decide)
          rw [underscored, if_pos hc, ih (by simp) hrest]
          · rfl
          · exact hd

theorem parseInt_digits {t : Text} (hne : t ≠ [])
    (h : ∀ c ∈ t, isDigit c = true) :
    parseInt t = if maxIntDigits < t.length then none
      else some (digitsValue t : Int) := by
  obtain ⟨c, rest, rfl⟩ := List.exists_cons_of_ne_nil hne
  have hc := h c (.head rest)
  have hspace : ((c :: rest).dropWhile isIntSpace).rdropWhile isIntSpace =
      c :: rest := by
    rw [List.dropWhile_cons_of_neg (by simp [isIntSpace_of_isDigit hc]),
      List.rdropWhile_eq_self_iff]
    intro hne
    simp [isIntSpace_of_isDigit (h _ (List.getLast_mem hne))]
  have hminus : c ≠ '-' := by
    rintro rfl
    exact absurd hc (by decide)
  have hplus : c ≠ '+' := by
    rintro rfl
    exact absurd hc (by decide)
  unfold parseInt
  rw [hspace]
  simp [hminus, hplus, underscored_eq_self hne h]

theorem digit?_lt {c : Char} {d : Nat} (h : digit? c = some d) : d < 10 := by
  obtain ⟨code, hcode, rfl⟩ := Option.map_eq_some_iff.mp h
  have hrange := List.find?_some hcode
  simp only [Bool.and_eq_true, decide_eq_true_eq] at hrange
  omega

theorem digitsValue_lt (t : Text) : digitsValue t < 10 ^ t.length := by
  induction t using List.reverseRecOn with
  | nil => simp [digitsValue]
  | append_singleton t c ih =>
      have hdigit : (digit? c).getD 0 < 10 := by
        cases hc : digit? c with
        | none => simp
        | some d => exact digit?_lt hc
      rw [digitsValue_append_singleton, List.length_append, List.length_singleton,
        pow_succ]
      omega

theorem digitsValue_append (t t' : Text) :
    digitsValue (t ++ t') = digitsValue t * 10 ^ t'.length + digitsValue t' := by
  induction t' using List.reverseRecOn with
  | nil => simp [digitsValue]
  | append_singleton t' c ih =>
      rw [← List.append_assoc, digitsValue_append_singleton,
        digitsValue_append_singleton, ih, List.length_append, List.length_singleton,
        pow_succ]
      ring

theorem length_ofNat_le {n k : Nat} (hk : 0 < k) (h : n < 10 ^ k) :
    (ofNat n).length ≤ k := by
  unfold ofNat
  split
  · exact hk
  · next hn =>
    rw [List.length_map, List.length_reverse, Nat.length_digits 10 n (by norm_num) hn]
    exact Nat.log_lt_of_lt_pow hn h

theorem length_le_of_parseInt {t : Text} {n : Int} (h : parseInt t = some n) :
    (ofNat n.natAbs).length ≤ maxIntDigits := by
  unfold parseInt at h
  dsimp only at h
  split at h
  · cases h
  · next digits hdigits =>
    split at h
    · cases h
    · next hshort =>
      have hvalue : n.natAbs = digitsValue digits := by
        rw [← Option.some.inj h]
        split <;> simp
      rw [hvalue]
      refine length_ofNat_le (by decide) ((digitsValue_lt digits).trans_le ?_)
      exact Nat.pow_le_pow_right (by norm_num) (not_lt.mp hshort)

/-- An integer that is not too long is read back from its own text. -/
theorem parseInt_ofInt {n : Int} (h : (ofNat n.natAbs).length ≤ maxIntDigits) :
    parseInt (ofInt n) = some n := by
  cases n with
  | ofNat n =>
      have hn : (ofNat n).length ≤ maxIntDigits := h
      rw [ofInt, parseInt_digits (ofNat_ne_nil n) fun c => isDigit_of_mem_ofNat,
        if_neg (not_lt.mpr hn), digitsValue_ofNat]
      rfl
  | negSucc n =>
      have hn : (ofNat (n + 1)).length ≤ maxIntDigits := h
      have hspace : (('-' :: ofNat (n + 1)).dropWhile isIntSpace).rdropWhile
          isIntSpace = '-' :: ofNat (n + 1) := by
        rw [List.dropWhile_cons_of_neg (by decide), List.rdropWhile_eq_self_iff]
        intro hne
        rw [List.getLast_cons (ofNat_ne_nil (n + 1))]
        have hlast := List.getLast_mem (ofNat_ne_nil (n + 1))
        simp [isIntSpace_of_isDigit (isDigit_of_mem_ofNat hlast)]
      unfold parseInt
      rw [ofInt, hspace]
      simp [underscored_eq_self (ofNat_ne_nil _) fun c => isDigit_of_mem_ofNat,
        not_lt.mpr hn, digitsValue_ofNat, Int.negSucc_eq]

def strip (t : Text) : Text := (t.dropWhile isSpace).rdropWhile isSpace

theorem mem_of_mem_strip {t : Text} {c : Char} (h : c ∈ strip t) : c ∈ t :=
  (List.dropWhile_sublist _).subset ((List.rdropWhile_prefix _ _).subset h)

theorem strip_eq_self {t : Text} (h : ∀ c ∈ t, isSpace c = false) :
    strip t = t := by
  have hleft : t.dropWhile isSpace = t := by
    cases t with
    | nil => rfl
    | cons c t => rw [List.dropWhile_cons_of_neg]; simp [h c (.head t)]
  rw [strip, hleft, List.rdropWhile_eq_self_iff]
  intro hne
  simp [h _ (List.getLast_mem hne)]

theorem takeWhile_isDigit_append {digits rest : Text}
    (hdigits : ∀ c ∈ digits, isDigit c = true)
    (hrest : ∀ c ∈ rest.head?, isDigit c = false) :
    (digits ++ rest).takeWhile isDigit = digits := by
  rw [List.takeWhile_append_of_pos hdigits]
  cases rest with
  | nil => simp
  | cons c rest =>
      rw [List.takeWhile_cons_of_neg (by simp [hrest c rfl]), List.append_nil]

theorem dropWhile_isDigit_append {digits rest : Text}
    (hdigits : ∀ c ∈ digits, isDigit c = true)
    (hrest : ∀ c ∈ rest.head?, isDigit c = false) :
    (digits ++ rest).dropWhile isDigit = rest := by
  rw [List.dropWhile_append_of_pos hdigits]
  cases rest with
  | nil => rfl
  | cons c rest => rw [List.dropWhile_cons_of_neg (by simp [hrest c rfl])]

/-- `t.split(sep, n)`: cut at the first `n` separators. -/
def splitMax (sep : Char) : Nat → Text → List Text
  | 0, t => [t]
  | n + 1, t =>
      match t.dropWhile (· != sep) with
      | [] => [t]
      | _ :: rest => t.takeWhile (· != sep) :: splitMax sep n rest

theorem splitMax_append {sep : Char} {t : Text} (h : sep ∉ t) (n : Nat)
    (rest : Text) :
    splitMax sep (n + 1) (t ++ sep :: rest) = t :: splitMax sep n rest := by
  have hpass : ∀ c ∈ t, (c != sep) = true := fun c hc =>
    bne_iff_ne.mpr fun heq => h (heq ▸ hc)
  rw [splitMax, List.dropWhile_append_of_pos hpass,
    List.dropWhile_cons_of_neg (by simp), List.takeWhile_append_of_pos hpass,
    List.takeWhile_cons_of_neg (by simp), List.append_nil]

theorem splitMax_of_not_mem {sep : Char} {t : Text} (h : sep ∉ t) (n : Nat) :
    splitMax sep n t = [t] := by
  cases n with
  | zero => rfl
  | succ n =>
      have hall : t.dropWhile (· != sep) = [] :=
        List.dropWhile_eq_nil_iff.mpr fun c hc =>
          bne_iff_ne.mpr fun heq => h (heq ▸ hc)
      rw [splitMax, hall]

/-- `t.partition(sep)` without the separator. -/
def partition (sep : Char) (t : Text) : Text × Text :=
  (t.takeWhile (· != sep), (t.dropWhile (· != sep)).drop 1)

theorem partition_append {sep : Char} {t : Text} (h : sep ∉ t) (rest : Text) :
    partition sep (t ++ sep :: rest) = (t, rest) := by
  have hpass : ∀ c ∈ t, (c != sep) = true := fun c hc =>
    bne_iff_ne.mpr fun heq => h (heq ▸ hc)
  rw [partition, List.dropWhile_append_of_pos hpass,
    List.dropWhile_cons_of_neg (by simp), List.takeWhile_append_of_pos hpass,
    List.takeWhile_cons_of_neg (by simp), List.append_nil]
  rfl

theorem partition_of_not_mem {sep : Char} {t : Text} (h : sep ∉ t) :
    partition sep t = (t, []) := by
  have hpass : ∀ c ∈ t, (c != sep) = true := fun c hc =>
    bne_iff_ne.mpr fun heq => h (heq ▸ hc)
  rw [partition, List.takeWhile_eq_self_iff.mpr hpass,
    List.dropWhile_eq_nil_iff.mpr hpass]
  rfl

/-- `t.split(sep)[0]`. -/
def firstPart (sep : Char) (t : Text) : Text := t.takeWhile (· != sep)

/-- Whether `needle in haystack`. -/
def hasSubtext (haystack needle : Text) : Bool :=
  haystack.tails.any needle.isPrefixOf

/-- `t.replace(token, "")` for a nonempty token. -/
def remove (token : Text) (t : Text) : Text := go t.length t
where
  go : Nat → Text → Text
    | _, [] => []
    | 0, t => t
    | fuel + 1, c :: rest =>
        if token.isPrefixOf (c :: rest) then
          go fuel ((c :: rest).drop token.length)
        else c :: go fuel rest

theorem go_of_le {token : Text} (hne : token ≠ []) :
    ∀ {fuel fuel' : Nat} {t : Text}, t.length ≤ fuel → t.length ≤ fuel' →
      remove.go token fuel t = remove.go token fuel' t := by
  intro fuel
  induction fuel with
  | zero =>
      intro fuel' t h _
      obtain rfl := List.length_eq_zero_iff.mp (Nat.le_zero.mp h)
      simp [remove.go]
  | succ fuel ih =>
      intro fuel' t h h'
      cases t with
      | nil => simp [remove.go]
      | cons c rest =>
          cases fuel' with
          | zero => simp at h'
          | succ fuel' =>
              simp only [List.length_cons, Nat.add_le_add_iff_right] at h h'
              have hpos : 0 < token.length := List.length_pos_iff.mpr hne
              have hdrop : ((c :: rest).drop token.length).length ≤ rest.length := by
                simp only [List.length_drop, List.length_cons]
                omega
              rw [remove.go, remove.go, ih h h',
                ih (hdrop.trans h) (hdrop.trans h')]

theorem remove_cons {token : Text} (hne : token ≠ []) (c : Char) (rest : Text) :
    remove token (c :: rest) =
      if token.isPrefixOf (c :: rest) then
        remove token ((c :: rest).drop token.length)
      else c :: remove token rest := by
  have hpos : 0 < token.length := List.length_pos_iff.mpr hne
  have hdrop : ((c :: rest).drop token.length).length ≤ rest.length := by
    simp only [List.length_drop, List.length_cons]
    omega
  rw [remove, List.length_cons, remove.go, remove, remove,
    go_of_le hne hdrop le_rfl]

theorem remove_append_of_not_mem {first : Char} {token t : Text} (h : first ∉ t)
    (after : Text) :
    remove (first :: token) (t ++ after) = t ++ remove (first :: token) after := by
  induction t with
  | nil => rfl
  | cons c t ih =>
      obtain ⟨hc, ht⟩ := not_or.mp (mt List.mem_cons.mpr h)
      rw [List.cons_append, remove_cons (by simp), if_neg, ih ht]
      · rfl
      · simp [List.isPrefixOf, hc]

theorem remove_append_of_separated {first second : Char} {t : Text}
    (h : second ∉ t) (hlast : ∀ c ∈ t.getLast?, c ≠ first) (after : Text) :
    remove [first, second] (t ++ after) = t ++ remove [first, second] after := by
  induction t with
  | nil => rfl
  | cons c t ih =>
      obtain ⟨-, ht⟩ := not_or.mp (mt List.mem_cons.mpr h)
      rw [List.cons_append, remove_cons (by simp), if_neg]
      · rw [ih ht]
        · rfl
        · intro d hd
          refine hlast d ?_
          cases t with
          | nil => simp at hd
          | cons e t => simpa using hd
      · cases t with
        | nil => simp [List.isPrefixOf, Ne.symm (hlast c rfl)]
        | cons d t =>
            have hd : second ≠ d := fun heq => ht (heq ▸ .head t)
            simp [List.isPrefixOf, hd]

/-! ## Case and accents -/

/-- The letters of Latin-1 that NFKD splits into a letter and a combining mark. -/
def accented : List (Char × Text × Text) :=
  [('\u0300', "ÀÈÌÒÙàèìòù".toList, "AEIOUaeiou".toList),
    ('\u0301', "ÁÉÍÓÚÝáéíóúý".toList, "AEIOUYaeiouy".toList),
    ('\u0302', "ÂÊÎÔÛâêîôû".toList, "AEIOUaeiou".toList),
    ('\u0303', "ÃÑÕãñõ".toList, "ANOano".toList),
    ('\u0308', "ÄËÏÖÜäëïöüÿ".toList, "AEIOUaeiouy".toList),
    ('\u030a', "Åå".toList, "Aa".toList),
    ('\u0327', "Çç".toList, "Cc".toList)]

/-- The other code points of Latin-1 with a compatibility decomposition. -/
def compatibility : List (Char × Text) :=
  [('\u00a0', " ".toList), ('¨', [' ', '\u0308']), ('ª', "a".toList),
    ('¯', [' ', '\u0304']), ('²', "2".toList), ('³', "3".toList),
    ('´', [' ', '\u0301']), ('µ', ['\u03bc']), ('¸', [' ', '\u0327']),
    ('¹', "1".toList), ('º', "o".toList), ('¼', ['1', '\u2044', '4']),
    ('½', ['1', '\u2044', '2']), ('¾', ['3', '\u2044', '4'])]

def latinDecomposition (c : Char) : Text :=
  match accented.findSome? fun (mark, composed, base) =>
      ((composed.zip base).lookup c).map fun letter => [letter, mark] with
  | some letters => letters
  | none => (compatibility.lookup c).getD [c]

variable [runtime : PythonRuntime]

/-- `unicodedata.normalize("NFKD", c)`, up to the order of combining marks. -/
def nfkd (c : Char) : Text :=
  if c.toNat < 0x80 then [c]
  else if c.toNat < 0x100 then latinDecomposition c
  else runtime.nfkdBeyond c

def combining (c : Char) : Bool :=
  if c.toNat < 0x300 then false
  else if c.toNat < 0x370 then c.toNat != 0x34f
  else runtime.combiningBeyond c

def isUpperLatin (c : Char) : Bool :=
  (0x41 ≤ c.toNat && c.toNat ≤ 0x5a) ||
    (0xc0 ≤ c.toNat && c.toNat ≤ 0xde && c.toNat != 0xd7)

def isLowerLatin (c : Char) : Bool :=
  (0x61 ≤ c.toNat && c.toNat ≤ 0x7a) ||
    (0xe0 ≤ c.toNat && c.toNat ≤ 0xfe && c.toNat != 0xf7)

def lowerChar (c : Char) : Text :=
  if c.toNat < 0x100 then
    [if isUpperLatin c then Char.ofNat (c.toNat + 32) else c]
  else runtime.lowerBeyond c

def upperChar (c : Char) : Text :=
  if c.toNat < 0x100 then
    if c = 'ß' then "SS".toList
    else if c = 'ÿ' then ['\u0178']
    else if c = 'µ' then ['\u039c']
    else [if isLowerLatin c then Char.ofNat (c.toNat - 32) else c]
  else runtime.upperBeyond c

def casefoldChar (c : Char) : Text :=
  if c.toNat < 0x100 then
    if c = 'ß' then "ss".toList
    else if c = 'µ' then ['\u03bc']
    else lowerChar c
  else runtime.casefoldBeyond c

def lower (t : Text) : Text := t.flatMap lowerChar

def upper (t : Text) : Text := t.flatMap upperChar

def casefold (t : Text) : Text := t.flatMap casefoldChar

/-- NFKD without its combining marks; dropping them makes their order irrelevant. -/
def stripAccents (t : Text) : Text :=
  (t.flatMap nfkd).filter fun c => !combining c

/-! ## `repr` of a string -/

def hexDigit (d : Nat) : Char :=
  if d < 10 then Char.ofNat (48 + d) else Char.ofNat (87 + d)

def hexDigits (width value : Nat) : Text :=
  (List.range width).reverse.map fun i => hexDigit (value / 16 ^ i % 16)

def printable (c : Char) : Bool :=
  if c.toNat < 0x100 then
    0x20 ≤ c.toNat && c.toNat < 0x7f || (0xa1 ≤ c.toNat && c.toNat != 0xad)
  else runtime.printableBeyond c

def reprChar (quote c : Char) : Text :=
  if c = '\\' || c = quote then ['\\', c]
  else if c = '\n' then "\\n".toList
  else if c = '\r' then "\\r".toList
  else if c = '\t' then "\\t".toList
  else if printable c then [c]
  else if c.toNat < 0x100 then "\\x".toList ++ hexDigits 2 c.toNat
  else if c.toNat < 0x10000 then "\\u".toList ++ hexDigits 4 c.toNat
  else "\\U".toList ++ hexDigits 8 c.toNat

def apostrophe : Char := Char.ofNat 39

def quotationMark : Char := Char.ofNat 34

def repr (t : Text) : Text :=
  let quote :=
    if t.elem apostrophe && !t.elem quotationMark then quotationMark
    else apostrophe
  quote :: t.flatMap (reprChar quote) ++ [quote]

end Text

end RealEstateTracker.Foundation
