import Mathlib.Data.List.Forall2
import Mathlib.Tactic

/-!
# Self-delimiting words

A code gives every value a word.  A value can be read off the front of a text when
no other value has a word there, whatever may follow a word.  Then so can a list of
values, if a symbol that starts no word ends it, with or without separators.
-/

namespace RealEstateTracker.Foundation

variable {α β σ : Type}

/-- A value with a word where `a` has one is the same as `a`, and the texts go on alike. -/
def ReadsAs (code : α → List σ) (Valid : α → Prop) (Follows : List σ → Prop)
    (Same : α → α → Prop) (a : α) : Prop :=
  ∀ a' rest rest', Valid a' → Follows rest → Follows rest' →
    code a ++ rest = code a' ++ rest' → Same a a' ∧ rest = rest'

section Lists

variable {code : α → List σ} {Valid : α → Prop} {Follows : List σ → Prop}
  {Same : α → α → Prop} {close : σ}

theorem readsAs_of_decode {decode : List σ → Option (α × List σ)}
    (hdecode : ∀ a rest, decode (code a ++ rest) = some (a, rest)) (a : α) :
    ReadsAs code Valid Follows Eq a := by
  intro a' rest rest' _ _ _ heq
  have hboth := congrArg decode heq
  rw [hdecode, hdecode] at hboth
  exact Prod.ext_iff.mp (Option.some.inj hboth)

theorem ReadsAs.after {a : α} (h : ReadsAs code Valid Follows Same a) (mark : List σ) :
    ReadsAs (fun a => mark ++ code a) Valid Follows Same a := by
  intro a' rest rest' hvalid hrest hrest' heq
  simp only [List.append_assoc] at heq
  exact h a' rest rest' hvalid hrest hrest' (List.append_cancel_left heq)

theorem append_inj_of_alphabet {alphabet : σ → Prop} {word word' rest rest' : List σ}
    (hword : ∀ c ∈ word, alphabet c) (hword' : ∀ c ∈ word', alphabet c)
    (hrest : ∀ c ∈ rest.head?, ¬alphabet c) (hrest' : ∀ c ∈ rest'.head?, ¬alphabet c)
    (heq : word ++ rest = word' ++ rest') : word = word' ∧ rest = rest' := by
  induction word generalizing word' with
  | nil =>
      cases word' with
      | nil => exact ⟨rfl, heq⟩
      | cons c word' => exact absurd (hword' c (.head _)) (hrest c (by simp_all))
  | cons c word ih =>
      cases word' with
      | nil =>
          rw [List.nil_append] at heq
          exact absurd (hword c (.head _)) (hrest' c (by simp [← heq]))
      | cons c' word' =>
          obtain ⟨rfl, htail⟩ := List.cons.inj heq
          obtain ⟨rfl, rfl⟩ := ih (fun d hd => hword d (.tail _ hd))
            (fun d hd => hword' d (.tail _ hd)) htail
          exact ⟨rfl, rfl⟩

/-- Words one after the other, up to a symbol that starts none of them. -/
theorem flatMap_reads {as as' : List α}
    (hstart : ∀ a, Valid a → ∃ c word, code a = c :: word ∧ c ≠ close)
    (hclose : ∀ rest, Follows (close :: rest))
    (hnext : ∀ a rest, Valid a → Follows (code a ++ rest))
    (hvalid : ∀ a ∈ as, Valid a) (hvalid' : ∀ a ∈ as', Valid a)
    (hreads : ∀ a ∈ as, ReadsAs code Valid Follows Same a) {rest rest' : List σ}
    (heq : as.flatMap code ++ close :: rest = as'.flatMap code ++ close :: rest') :
    List.Forall₂ Same as as' ∧ rest = rest' := by
  have hfollows : ∀ (bs : List α) tail, (∀ b ∈ bs, Valid b) →
      Follows (bs.flatMap code ++ close :: tail) := by
    intro bs tail hbs
    cases bs with
    | nil => exact hclose tail
    | cons b bs =>
        rw [List.flatMap_cons, List.append_assoc]
        exact hnext b _ (hbs b (.head _))
  induction as generalizing as' with
  | nil =>
      cases as' with
      | nil => exact ⟨.nil, (List.cons.inj heq).2⟩
      | cons a' as' =>
          obtain ⟨c, word, hcode, hne⟩ := hstart a' (hvalid' a' (.head _))
          rw [List.flatMap_cons, hcode] at heq
          exact absurd (List.cons.inj heq).1.symm hne
  | cons a as ih =>
      cases as' with
      | nil =>
          obtain ⟨c, word, hcode, hne⟩ := hstart a (hvalid a (.head _))
          rw [List.flatMap_cons, hcode] at heq
          exact absurd (List.cons.inj heq).1 hne
      | cons a' as' =>
          have has : ∀ b ∈ as, Valid b := fun b hb => hvalid b (.tail _ hb)
          have has' : ∀ b ∈ as', Valid b := fun b hb => hvalid' b (.tail _ hb)
          rw [List.flatMap_cons, List.flatMap_cons, List.append_assoc,
            List.append_assoc] at heq
          obtain ⟨hsame, htail⟩ := hreads a (.head _) a' _ _ (hvalid' a' (.head _))
            (hfollows as rest has) (hfollows as' rest' has') heq
          obtain ⟨hall, hrest⟩ := ih has has' (fun b hb => hreads b (.tail _ hb)) htail
          exact ⟨.cons hsame hall, hrest⟩

theorem intercalate_cons (sep word : List σ) (words : List (List σ)) :
    sep.intercalate (word :: words) = word ++ words.flatMap (sep ++ ·) := by
  induction words generalizing word with
  | nil => simp [List.intercalate]
  | cons next words ih =>
      rw [List.intercalate_cons_cons, ih next, List.flatMap_cons]
      simp only [List.append_assoc]

/-- Words between separators, up to a symbol that starts neither. -/
theorem intercalate_reads {as as' : List α} {mark : σ} {sep : List σ}
    (hmark : mark ≠ close)
    (hstart : ∀ a, Valid a → ∃ c word, code a = c :: word ∧ c ≠ close)
    (hclose : ∀ rest, Follows (close :: rest))
    (hsep : ∀ rest, Follows (mark :: rest))
    (hvalid : ∀ a ∈ as, Valid a) (hvalid' : ∀ a ∈ as', Valid a)
    (hreads : ∀ a ∈ as, ReadsAs code Valid Follows Same a) {rest rest' : List σ}
    (heq : (mark :: sep).intercalate (as.map code) ++ close :: rest =
      (mark :: sep).intercalate (as'.map code) ++ close :: rest') :
    List.Forall₂ Same as as' ∧ rest = rest' := by
  have hfollows : ∀ (bs : List α) tail,
      Follows (bs.flatMap (fun b => mark :: sep ++ code b) ++ close :: tail) := by
    intro bs tail
    cases bs with
    | nil => exact hclose tail
    | cons b bs => exact hsep _
  cases as with
  | nil =>
      cases as' with
      | nil => exact ⟨.nil, (List.cons.inj heq).2⟩
      | cons a' as' =>
          obtain ⟨c, word, hcode, hne⟩ := hstart a' (hvalid' a' (.head _))
          rw [List.map_cons, intercalate_cons, hcode] at heq
          exact absurd (List.cons.inj heq).1.symm hne
  | cons a as =>
      cases as' with
      | nil =>
          obtain ⟨c, word, hcode, hne⟩ := hstart a (hvalid a (.head _))
          rw [List.map_cons, intercalate_cons, hcode] at heq
          exact absurd (List.cons.inj heq).1 hne
      | cons a' as' =>
          simp only [List.map_cons, intercalate_cons, List.flatMap_map,
            List.append_assoc] at heq
          obtain ⟨hsame, htail⟩ := hreads a (.head _) a' _ _ (hvalid' a' (.head _))
            (hfollows as rest) (hfollows as' rest') heq
          obtain ⟨hall, hrest⟩ := flatMap_reads
            (fun b _ => ⟨mark, sep ++ code b, rfl, hmark⟩) hclose
            (fun b _ _ => hsep _) (fun b hb => hvalid b (.tail _ hb))
            (fun b hb => hvalid' b (.tail _ hb))
            (fun b hb => (hreads b (.tail _ hb)).after (mark :: sep)) htail
          exact ⟨.cons hsame hall, hrest⟩

end Lists

theorem readsAs_pair {code : α → List σ} {code' : β → List σ} {Valid : β → Prop}
    {Follows : List σ → Prop} {Same : β → β → Prop} {pair : α × β}
    (hfirst : ReadsAs code (fun _ => True) (fun _ => True) Eq pair.1)
    (hsecond : ReadsAs code' Valid Follows Same pair.2) :
    ReadsAs (fun p : α × β => code p.1 ++ code' p.2) (fun p => Valid p.2) Follows
      (fun p p' => p.1 = p'.1 ∧ Same p.2 p'.2) pair := by
  intro pair' rest rest' hvalid hrest hrest' heq
  simp only [List.append_assoc] at heq
  obtain ⟨hkey, htail⟩ := hfirst pair'.1 _ _ trivial trivial trivial heq
  obtain ⟨hsame, hrests⟩ := hsecond pair'.2 rest rest' hvalid hrest hrest' htail
  exact ⟨⟨hkey, hsame⟩, hrests⟩

end RealEstateTracker.Foundation
