import Mathlib.Logic.Function.Basic
import Mathlib.Tactic

/-!
# Change detection

A catalogue keeps, for each source, the fingerprint of the contents that were
last saved and the item made of them.  Keys, fingerprints, addresses, items,
their data and the errors are parameters.  A refresh saves a sighting unless the
fingerprint is the one stored; the variant that saves every sighting serves as
the specification.
-/

namespace RealEstateTracker.Foundation

structure Entry (H U I : Type) where
  hash : H
  url : U
  item : I

@[ext] structure Catalogue (K H U I D : Type) where
  entries : K → Option (Entry H U I)
  items : I → Option D

/-- A source as it is seen, and the item that is made of it, whose data may be refused. -/
structure Sighting (K H U I D E : Type) where
  key : K
  hash : H
  url : U
  found : Except E (Option (I × Except E D))

namespace Catalogue

variable {K H U I D E : Type} [DecidableEq K] [DecidableEq I]

def put (c : Catalogue K H U I D) (x : Sighting K H U I D E) (item : I) (data : D) :
    Catalogue K H U I D where
  entries := Function.update c.entries x.key (some ⟨x.hash, x.url, item⟩)
  items := Function.update c.items item (some data)

def save (c : Catalogue K H U I D) (x : Sighting K H U I D E) :
    Except E (Option I × Catalogue K H U I D) :=
  match x.found with
  | .error error => .error error
  | .ok none => .ok (none, c)
  | .ok (some (_, .error error)) => .error error
  | .ok (some (item, .ok data)) => .ok (some item, c.put x item data)

def refresh [DecidableEq H] (c : Catalogue K H U I D) (x : Sighting K H U I D E) :
    Except E (Option I × Catalogue K H U I D) :=
  match c.entries x.key with
  | some entry => if entry.hash = x.hash then .ok (some entry.item, c) else c.save x
  | none => c.save x

/-- Take the sightings in turn and collect their items; an error ends the run. -/
def run (step : Catalogue K H U I D → Sighting K H U I D E →
      Except E (Option I × Catalogue K H U I D)) :
    Catalogue K H U I D → List (Sighting K H U I D E) → List I →
      Except E (List I) × Catalogue K H U I D
  | c, [], ids => (.ok ids, c)
  | c, x :: xs, ids =>
      match step c x with
      | .error error => (.error error, c)
      | .ok (found, c') => run step c' xs (ids ++ found.toList)

def continued (step : Catalogue K H U I D → Sighting K H U I D E →
      Except E (Option I × Catalogue K H U I D)) (xs : List (Sighting K H U I D E))
    (ended : Except E (List I) × Catalogue K H U I D) :
    Except E (List I) × Catalogue K H U I D :=
  match ended.1 with
  | .error error => (.error error, ended.2)
  | .ok ids => run step ended.2 xs ids

variable {c c' : Catalogue K H U I D} {x : Sighting K H U I D E}
  {xs : List (Sighting K H U I D E)}

def Unchanged (c : Catalogue K H U I D) (x : Sighting K H U I D E) : Prop :=
  (c.entries x.key).map (·.hash) = some x.hash

theorem refresh_of_unchanged [DecidableEq H] {entry : Entry H U I}
    (hentry : c.entries x.key = some entry) (hhash : entry.hash = x.hash) :
    c.refresh x = .ok (some entry.item, c) := by
  simp [refresh, hentry, hhash]

theorem refresh_of_changed [DecidableEq H] (h : ¬c.Unchanged x) : c.refresh x = c.save x := by
  unfold refresh
  cases hentry : c.entries x.key with
  | none => rfl
  | some entry =>
      rw [Unchanged, hentry] at h
      simp only [Option.map_some, Option.some.injEq] at h
      simp [h]

theorem entries_put_self (item : I) (data : D) :
    (c.put x item data).entries x.key = some ⟨x.hash, x.url, item⟩ :=
  Function.update_self ..

theorem entries_put_of_ne {key : K} (h : key ≠ x.key) (item : I) (data : D) :
    (c.put x item data).entries key = c.entries key :=
  Function.update_of_ne h ..

theorem items_put_self (item : I) (data : D) :
    (c.put x item data).items item = some data :=
  Function.update_self ..

theorem items_put_of_ne {item other : I} (h : other ≠ item) (data : D) :
    (c.put x item data).items other = c.items other :=
  Function.update_of_ne h ..

omit [DecidableEq K] [DecidableEq I] in
theorem run_cons (step : Catalogue K H U I D → Sighting K H U I D E →
      Except E (Option I × Catalogue K H U I D)) (c : Catalogue K H U I D)
    (x : Sighting K H U I D E) (xs : List (Sighting K H U I D E)) (ids : List I) :
    run step c (x :: xs) ids = continued step xs (run step c [x] ids) := by
  rw [run, run]
  cases step c x with
  | error error => rfl
  | ok found => rfl

/-! ## Skipping is an optimization -/

section Skipping

variable {Seen : Sighting K H U I D E → Prop}

/-- One source with one fingerprint always makes the same item. -/
def Determined (Seen : Sighting K H U I D E → Prop) : Prop :=
  ∀ x y, Seen x → Seen y → x.key = y.key → x.hash = y.hash → x.found = y.found

def Apart (Seen : Sighting K H U I D E → Prop) : Prop :=
  ∀ x y, Seen x → Seen y → ∀ item data data', x.found = .ok (some (item, data)) →
    y.found = .ok (some (item, data')) → x.key = y.key

def Sound (Seen : Sighting K H U I D E → Prop) (c : Catalogue K H U I D) : Prop :=
  ∀ key entry, c.entries key = some entry → ∃ x, Seen x ∧ x.key = key ∧
    x.hash = entry.hash ∧ ∃ data, x.found = .ok (some (entry.item, .ok data)) ∧
      c.items entry.item = some data

structure Similar (c c' : Catalogue K H U I D) : Prop where
  entries : ∀ key, (c.entries key).map (fun entry => (entry.hash, entry.item)) =
    (c'.entries key).map fun entry => (entry.hash, entry.item)
  items : c.items = c'.items

omit [DecidableEq K] [DecidableEq I] in
theorem Similar.refl (c : Catalogue K H U I D) : Similar c c := ⟨fun _ => rfl, rfl⟩

theorem Similar.put (h : Similar c c') (x : Sighting K H U I D E) (item : I) (data : D) :
    Similar (c.put x item data) (c'.put x item data) where
  entries key := by
    by_cases hkey : key = x.key
    · rw [hkey, entries_put_self, entries_put_self]
    · rw [entries_put_of_ne hkey, entries_put_of_ne hkey, h.entries]
  items := by rw [Catalogue.put, Catalogue.put, h.items]

theorem Sound.put (hapart : Apart Seen) (h : Sound Seen c) (hx : Seen x) {item : I}
    {data : D} (hfound : x.found = .ok (some (item, .ok data))) :
    Sound Seen (c.put x item data) := by
  intro key entry hentry
  by_cases hkey : key = x.key
  · rw [hkey, entries_put_self, Option.some.injEq] at hentry
    subst hentry
    exact ⟨x, hx, hkey.symm, rfl, data, hfound, items_put_self item data⟩
  · rw [entries_put_of_ne hkey] at hentry
    obtain ⟨y, hy, rfl, hhash, data', hfound', hitem⟩ := h key entry hentry
    have hne : entry.item ≠ item := by
      rintro rfl
      exact hkey (hapart y x hy hx _ _ _ hfound' hfound)
    exact ⟨y, hy, rfl, hhash, data', hfound', by rw [items_put_of_ne hne, hitem]⟩

/-- Saving again what an entry was made of changes nothing but its address. -/
theorem Similar.put_of_unchanged (h : Similar c c') {entry : Entry H U I}
    (hentry : c.entries x.key = some entry) (hhash : entry.hash = x.hash) {data : D}
    (hitem : c.items entry.item = some data) :
    Similar c (c'.put x entry.item data) where
  entries key := by
    by_cases hkey : key = x.key
    · rw [hkey, entries_put_self, hentry, Option.map_some, Option.map_some, hhash]
    · rw [entries_put_of_ne hkey, h.entries]
  items := by
    funext item
    by_cases hitem' : item = entry.item
    · rw [hitem', items_put_self, hitem]
    · rw [items_put_of_ne hitem', h.items]

/-- Both variants report the same items and leave similar catalogues. -/
structure SameRun (ended ended' : Except E (List I) × Catalogue K H U I D) : Prop where
  outcome : ended.1 = ended'.1
  similar : Similar ended.2 ended'.2

theorem run_refresh [DecidableEq H] (hdetermined : Determined Seen) (hapart : Apart Seen)
    (hseen : ∀ x ∈ xs, Seen x) (hsound : Sound Seen c) (hsimilar : Similar c c')
    (ids : List I) :
    SameRun (run refresh c xs ids) (run save c' xs ids) ∧
      Sound Seen (run refresh c xs ids).2 := by
  induction xs generalizing c c' ids with
  | nil => exact ⟨⟨rfl, hsimilar⟩, hsound⟩
  | cons x xs ih =>
      obtain ⟨hx, hxs⟩ := List.forall_mem_cons.mp hseen
      rw [run, run]
      by_cases hunchanged : c.Unchanged x
      · obtain ⟨entry, hentry, hhash⟩ := Option.map_eq_some_iff.mp hunchanged
        obtain ⟨y, hy, hkey, hhash', data, hfound, hitem⟩ := hsound _ entry hentry
        have hfound' : x.found = .ok (some (entry.item, .ok data)) := by
          rw [← hfound]
          exact hdetermined x y hx hy hkey.symm (hhash.symm.trans hhash'.symm)
        rw [refresh_of_unchanged hentry hhash, save, hfound']
        exact ih hxs hsound (hsimilar.put_of_unchanged hentry hhash hitem) _
      · rw [refresh_of_changed hunchanged, save, save]
        cases hfound : x.found with
        | error error => exact ⟨⟨rfl, hsimilar⟩, hsound⟩
        | ok found =>
            cases found with
            | none => exact ih hxs hsound hsimilar _
            | some made =>
                obtain ⟨item, error | data⟩ := made
                · exact ⟨⟨rfl, hsimilar⟩, hsound⟩
                · exact ih hxs (hsound.put hapart hx hfound) (hsimilar.put x item data) _

end Skipping

/-! ## What a refresh leaves behind -/

section Refreshing

variable {itemOf : K → I} {Recent : D → Prop}

def Usable (x : Sighting K H U I D E) : Prop :=
  ∃ item data, x.found = .ok (some (item, data))

def Fresh (itemOf : K → I) (Recent : D → Prop) (x : Sighting K H U I D E) : Prop :=
  ∀ item data, x.found = .ok (some (item, .ok data)) → item = itemOf x.key ∧ Recent data

/-- Some usable sighting of the source has another fingerprint than the one stored. -/
def Rewritten (c : Catalogue K H U I D) (xs : List (Sighting K H U I D E)) (key : K) :
    Prop :=
  ∃ x ∈ xs, Usable x ∧ x.key = key ∧ ¬c.Unchanged x

/-- The entry of the source has the address that is seen, and its item is recent. -/
def Recorded (Recent : D → Prop) (c : Catalogue K H U I D) (x : Sighting K H U I D E) :
    Prop :=
  ∃ entry, c.entries x.key = some entry ∧ entry.url = x.url ∧
    ∃ data, c.items entry.item = some data ∧ Recent data

def Touched (itemOf : K → I) (c : Catalogue K H U I D)
    (xs : List (Sighting K H U I D E)) (item : I) : Prop :=
  ∃ key, Rewritten c xs key ∧ itemOf key = item

/--
Every usable sighting of the source has the same address, and the source is saved
again or its entry needs no refresh.
-/
def Refreshed (itemOf : K → I) (Recent : D → Prop) (c : Catalogue K H U I D)
    (xs : List (Sighting K H U I D E)) (x : Sighting K H U I D E) : Prop :=
  (∀ y ∈ xs, Usable y → y.key = x.key → y.url = x.url) ∧
    (Rewritten c xs x.key ∨ ∃ entry, c.entries x.key = some entry ∧ entry.url = x.url ∧
      (Touched itemOf c xs entry.item ∨
        ∃ data, c.items entry.item = some data ∧ Recent data))

structure Progress (itemOf : K → I) (Recent : D → Prop) (c : Catalogue K H U I D)
    (seen : List (Sighting K H U I D E)) (c' : Catalogue K H U I D) : Prop where
  kept : ∀ key, ¬Rewritten c seen key → c'.entries key = c.entries key
  rewritten : ∀ key, Rewritten c seen key → ∃ x ∈ seen, Usable x ∧ x.key = key ∧
    c'.entries key = some ⟨x.hash, x.url, itemOf key⟩
  same : ∀ item, ¬Touched itemOf c seen item → c'.items item = c.items item
  recent : ∀ item, Touched itemOf c seen item →
    ∃ data, c'.items item = some data ∧ Recent data

omit [DecidableEq K] [DecidableEq I] in
theorem Rewritten.append_left {key : K} (h : Rewritten c xs key)
    (ys : List (Sighting K H U I D E)) : Rewritten c (xs ++ ys) key := by
  obtain ⟨x, hx, hrest⟩ := h
  exact ⟨x, List.mem_append_left ys hx, hrest⟩

omit [DecidableEq K] [DecidableEq I] in
theorem rewritten_concat {key : K} : Rewritten c (xs ++ [x]) key ↔
    Rewritten c xs key ∨ (Usable x ∧ x.key = key ∧ ¬c.Unchanged x) := by
  simp [Rewritten, or_and_right, exists_or]

omit [DecidableEq K] [DecidableEq I] in
theorem Progress.skip {seen : List (Sighting K H U I D E)}
    (h : Progress itemOf Recent c seen c')
    (hskip : ¬Usable x ∨ c'.Unchanged x) :
    Progress itemOf Recent c (seen ++ [x]) c' := by
  have hiff : ∀ key, Rewritten c (seen ++ [x]) key ↔ Rewritten c seen key := by
    intro key
    refine rewritten_concat.trans (or_iff_left_of_imp ?_)
    rintro ⟨husable, rfl, hchanged⟩
    by_contra hkept
    have hunchanged := hskip.resolve_left (not_not.mpr husable)
    rw [Unchanged, h.kept _ hkept] at hunchanged
    exact hchanged hunchanged
  have htouched : ∀ item, Touched itemOf c (seen ++ [x]) item ↔
      Touched itemOf c seen item := fun item =>
    exists_congr fun key => and_congr_left fun _ => hiff key
  constructor
  · simpa only [hiff] using h.kept
  · intro key hkey
    obtain ⟨y, hy, hrest⟩ := h.rewritten key ((hiff key).mp hkey)
    exact ⟨y, List.mem_append_left _ hy, hrest⟩
  · simpa only [htouched] using h.same
  · simpa only [htouched] using h.recent

theorem Progress.put {seen : List (Sighting K H U I D E)}
    (h : Progress itemOf Recent c seen c') (hchanged : ¬c'.Unchanged x)
    (hfresh : Fresh itemOf Recent x) {item : I} {data : D}
    (hfound : x.found = .ok (some (item, .ok data))) :
    Progress itemOf Recent c (seen ++ [x]) (c'.put x item data) := by
  obtain ⟨rfl, hrecent⟩ := hfresh item data hfound
  have husable : Usable x := ⟨_, _, hfound⟩
  have hself : Rewritten c (seen ++ [x]) x.key := by
    by_cases hbefore : Rewritten c seen x.key
    · exact hbefore.append_left [x]
    · rw [Unchanged, h.kept _ hbefore] at hchanged
      exact rewritten_concat.mpr (.inr ⟨husable, rfl, hchanged⟩)
  have hother : ∀ key, key ≠ x.key → (Rewritten c (seen ++ [x]) key ↔
      Rewritten c seen key) := fun key hkey =>
    rewritten_concat.trans (or_iff_left fun hx => hkey hx.2.1.symm)
  have htouched : ∀ item, item ≠ itemOf x.key → (Touched itemOf c (seen ++ [x]) item ↔
      Touched itemOf c seen item) := fun item hitem =>
    exists_congr fun key => and_congr_left fun hkey =>
      hother key fun heq => hitem (by rw [← hkey, heq])
  constructor
  · intro key hkept
    have hkey : key ≠ x.key := fun heq => hkept (heq ▸ hself)
    rw [entries_put_of_ne hkey, h.kept key ((hother key hkey).not.mp hkept)]
  · intro key hrewritten
    by_cases hkey : key = x.key
    · subst hkey
      exact ⟨x, by simp, husable, rfl, entries_put_self _ _⟩
    · obtain ⟨y, hy, husable', hkey', hentry⟩ :=
        h.rewritten key ((hother key hkey).mp hrewritten)
      exact ⟨y, List.mem_append_left _ hy, husable', hkey',
        by rw [entries_put_of_ne hkey, hentry]⟩
  · intro item hkept
    have hitem : item ≠ itemOf x.key := fun heq => hkept ⟨x.key, hself, heq.symm⟩
    rw [items_put_of_ne hitem, h.same item ((htouched item hitem).not.mp hkept)]
  · intro item htouch
    by_cases hitem : item = itemOf x.key
    · rw [hitem, items_put_self]
      exact ⟨data, rfl, hrecent⟩
    · rw [items_put_of_ne hitem]
      exact h.recent item ((htouched item hitem).mp htouch)

theorem progress_run [DecidableEq H] {seen : List (Sighting K H U I D E)}
    (hfresh : ∀ x ∈ xs, Fresh itemOf Recent x) {middle : Catalogue K H U I D}
    (h : Progress itemOf Recent c seen middle) {ids ids' : List I}
    (hrun : run refresh middle xs ids = (.ok ids', c')) :
    Progress itemOf Recent c (seen ++ xs) c' := by
  induction xs generalizing seen middle ids with
  | nil =>
      obtain rfl : middle = c' := congrArg Prod.snd hrun
      rwa [List.append_nil]
  | cons x xs ih =>
      obtain ⟨hx, hxs⟩ := List.forall_mem_cons.mp hfresh
      rw [run] at hrun
      rw [List.append_cons]
      by_cases hunchanged : middle.Unchanged x
      · obtain ⟨entry, hentry, hhash⟩ := Option.map_eq_some_iff.mp hunchanged
        rw [refresh_of_unchanged hentry hhash] at hrun
        exact ih hxs (h.skip (.inr hunchanged)) hrun
      · rw [refresh_of_changed hunchanged, save] at hrun
        cases hfound : x.found with
        | error error =>
            rw [hfound] at hrun
            cases congrArg Prod.fst hrun
        | ok found =>
            rw [hfound] at hrun
            cases found with
            | none =>
                have hunusable : ¬Usable x := by
                  rintro ⟨item, data, hmade⟩
                  rw [hfound] at hmade
                  cases hmade
                exact ih hxs (h.skip (.inl hunusable)) hrun
            | some made =>
                obtain ⟨item, error | data⟩ := made
                · cases congrArg Prod.fst hrun
                · exact ih hxs (h.put hunchanged hx hfound) hrun

omit [DecidableEq K] [DecidableEq I] in
theorem Progress.refl (c : Catalogue K H U I D) :
    Progress itemOf Recent c ([] : List (Sighting K H U I D E)) c := by
  constructor <;> simp [Rewritten, Touched]

omit [DecidableEq K] [DecidableEq I] in
theorem Progress.recorded_iff (h : Progress itemOf Recent c xs c') :
    Recorded Recent c' x ↔
      (∃ y ∈ xs, Rewritten c xs x.key ∧ Usable y ∧ y.key = x.key ∧ y.url = x.url ∧
          c'.entries x.key = some ⟨y.hash, y.url, itemOf x.key⟩) ∨
        (¬Rewritten c xs x.key ∧ ∃ entry, c.entries x.key = some entry ∧
          entry.url = x.url ∧ (Touched itemOf c xs entry.item ∨
            ∃ data, c.items entry.item = some data ∧ Recent data)) := by
  by_cases hrewritten : Rewritten c xs x.key
  · obtain ⟨y, hy, husable, hkey, hentry⟩ := h.rewritten x.key hrewritten
    have hrecent := h.recent (itemOf x.key) ⟨x.key, hrewritten, rfl⟩
    rw [Recorded, hentry]
    simp only [Option.some.injEq, exists_eq_left', hrecent, and_true, hrewritten,
      not_true_eq_false, false_and, or_false, true_and]
    constructor
    · exact fun hurl => ⟨y, hy, husable, hkey, hurl, rfl⟩
    · rintro ⟨z, -, -, -, hurl, hsame⟩
      rw [← hurl]
      exact congrArg Entry.url hsame
  · rw [Recorded, h.kept x.key hrewritten]
    simp only [hrewritten, false_and, and_false, exists_false, not_false_eq_true,
      true_and, false_or]
    refine exists_congr fun entry => and_congr_right fun _ => and_congr_right fun _ => ?_
    by_cases htouched : Touched itemOf c xs entry.item
    · exact iff_of_true (h.recent _ htouched) (.inl htouched)
    · rw [h.same _ htouched, or_iff_right htouched]

/-- Exactly when a refresh records every usable sighting. -/
theorem forall_recorded_iff [DecidableEq H]
    (hfresh : ∀ x ∈ xs, Fresh itemOf Recent x) {ids ids' : List I}
    (hrun : run refresh c xs ids = (.ok ids', c')) :
    (∀ x ∈ xs, Usable x → Recorded Recent c' x) ↔
      ∀ x ∈ xs, Usable x → Refreshed itemOf Recent c xs x := by
  have hprogress := progress_run hfresh (.refl c) hrun
  rw [List.nil_append] at hprogress
  constructor
  · intro h x hx husable
    refine ⟨fun y hy husable' hkey => ?_, ?_⟩
    · obtain ⟨entry, hentry, hurl, -⟩ := h x hx husable
      obtain ⟨entry', hentry', hurl', -⟩ := h y hy husable'
      rw [hkey, hentry, Option.some.injEq] at hentry'
      rw [← hurl, ← hurl', hentry']
    · obtain ⟨-, -, hrewritten, -⟩ | ⟨-, hentry⟩ :=
        hprogress.recorded_iff.mp (h x hx husable)
      · exact .inl hrewritten
      · exact .inr hentry
  · intro h x hx husable
    obtain ⟨hurls, hcovered⟩ := h x hx husable
    refine hprogress.recorded_iff.mpr ?_
    by_cases hrewritten : Rewritten c xs x.key
    · obtain ⟨y, hy, husable', hkey, hentry⟩ := hprogress.rewritten x.key hrewritten
      exact .inl ⟨y, hy, hrewritten, husable', hkey, hurls y hy husable' hkey, hentry⟩
    · exact .inr ⟨hrewritten, hcovered.resolve_left hrewritten⟩

end Refreshing

end Catalogue

end RealEstateTracker.Foundation
