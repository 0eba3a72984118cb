import RealEstateTracker.Foundation.Text

/-!
# Key-value texts

`key=value&key=value` over values that nothing escapes.  Two lists have the same
text only if a value of one spells out entries of the other.
-/

namespace RealEstateTracker.Foundation

namespace QueryText

abbrev Entry := Text × Text

def entryText (entry : Entry) : Text := entry.1 ++ '=' :: entry.2

def following (entries : List Entry) : Text :=
  entries.flatMap fun entry => '&' :: entryText entry

def joined : List Entry → Text
  | [] => []
  | entry :: rest => entryText entry ++ following rest

@[simp] theorem following_nil : following [] = [] := rfl

theorem following_cons (entry : Entry) (rest : List Entry) :
    following (entry :: rest) = '&' :: (entryText entry ++ following rest) := rfl

theorem intercalate_entryText (entries : List Entry) :
    List.intercalate ['&'] (entries.map entryText) = joined entries := by
  induction entries with
  | nil => rfl
  | cons entry rest ih =>
      cases rest with
      | nil => simp [joined]
      | cons next others =>
          rw [List.map_cons, List.map_cons, List.intercalate_cons_cons,
            ← List.map_cons, ih]
          simp [joined, following_cons]

/--
The first value in which the lists differ is longer in the second, by text that
the first list has in the entries after it.
-/
inductive Swallows : List Entry → List Entry → Prop
  | here {key value more : Text} {rest rest' : List Entry} (hmore : more ≠ [])
      (hrest : following rest = more ++ following rest') :
      Swallows ((key, value) :: rest) ((key, value ++ more) :: rest')
  | later {entry : Entry} {rest rest' : List Entry} (h : Swallows rest rest') :
      Swallows (entry :: rest) (entry :: rest')

theorem Swallows.following_eq {entries entries' : List Entry}
    (h : Swallows entries entries') : following entries = following entries' := by
  induction h with
  | here hmore hrest => simp [following_cons, entryText, hrest]
  | later h ih => rw [following_cons, following_cons, ih]

theorem Swallows.ne {entries entries' : List Entry}
    (h : Swallows entries entries') : entries ≠ entries' := by
  induction h with
  | here hmore hrest => simpa using fun h => absurd h hmore
  | later h ih => simpa using ih

theorem joined_eq_iff_following {entries entries' : List Entry} :
    joined entries = joined entries' ↔ following entries = following entries' := by
  cases entries with
  | nil => cases entries' <;> simp [joined, following_cons, entryText]
  | cons entry rest =>
      cases entries' <;> simp [joined, following_cons, entryText]

theorem eq_or_swallows {entries entries' : List Entry}
    (hkeys : ∀ entry ∈ entries, '=' ∉ entry.1)
    (hkeys' : ∀ entry ∈ entries', '=' ∉ entry.1)
    (h : following entries = following entries') :
    entries = entries' ∨ Swallows entries entries' ∨ Swallows entries' entries := by
  induction entries generalizing entries' with
  | nil =>
      cases entries' with
      | nil => exact .inl rfl
      | cons entry rest => simp [following_cons] at h
  | cons entry rest ih =>
      cases entries' with
      | nil => simp [following_cons] at h
      | cons entry' rest' =>
          obtain ⟨key, value⟩ := entry
          obtain ⟨key', value'⟩ := entry'
          simp only [List.forall_mem_cons] at hkeys hkeys'
          simp only [following_cons, entryText, List.cons.injEq, true_and,
            List.append_assoc, List.cons_append] at h
          -- the keys end at the first `=`, and one value extends the other
          obtain ⟨rfl, hvalues⟩ := append_cons_inj hkeys.1 hkeys'.1 h
          rcases List.append_eq_append_iff.mp hvalues with
            ⟨more, rfl, hrest⟩ | ⟨more, rfl, hrest⟩
          · rcases eq_or_ne more [] with rfl | hmore
            · rcases ih hkeys.2 hkeys'.2 (by simpa using hrest) with rfl | h | h
              · exact .inl (by simp)
              · exact .inr (.inl (by simpa using h.later))
              · exact .inr (.inr (by simpa using h.later))
            · exact .inr (.inl (.here hmore hrest))
          · rcases eq_or_ne more [] with rfl | hmore
            · rcases ih hkeys.2 hkeys'.2 (by simpa using hrest.symm) with
                rfl | h | h
              · exact .inl (by simp)
              · exact .inr (.inl (by simpa using h.later))
              · exact .inr (.inr (by simpa using h.later))
            · exact .inr (.inr (.here hmore hrest))

theorem joined_eq_iff {entries entries' : List Entry}
    (hkeys : ∀ entry ∈ entries, '=' ∉ entry.1)
    (hkeys' : ∀ entry ∈ entries', '=' ∉ entry.1) :
    joined entries = joined entries' ↔
      entries = entries' ∨ Swallows entries entries' ∨
        Swallows entries' entries := by
  rw [joined_eq_iff_following]
  constructor
  · exact eq_or_swallows hkeys hkeys'
  · rintro (rfl | h | h)
    · rfl
    · exact h.following_eq
    · exact h.following_eq.symm

end QueryText

end RealEstateTracker.Foundation
