import Mathlib.Data.List.Sort
import Mathlib.Data.List.TakeWhile
import Mathlib.Tactic

/-!
# Backlogs that are served in passes

A pass looks at the first `width` entries of a queue.  It removes the entries
that it can serve, leaves those that it skips where they are, and ends at the
first entry that it cannot get past.
-/

namespace RealEstateTracker.Foundation

inductive Verdict where
  | served
  | skipped
  | halted
  deriving DecidableEq, Repr

namespace Backlog

/-! ## Sorted queues -/

section Sorting

variable {α : Type} (r : α → α → Prop) [DecidableRel r] [IsTrans α r] [Std.Total r]
  (keep : α → Bool)

omit [Std.Total r] [IsTrans α r] in
theorem orderedInsert_of_forall {entry : α} {entries : List α}
    (h : ∀ other ∈ entries, r entry other) :
    entries.orderedInsert r entry = entry :: entries := by
  cases entries with
  | nil => rfl
  | cons first rest => exact List.orderedInsert_cons_of_le _ _ (h first (.head _))

omit [Std.Total r] in
theorem filter_orderedInsert (entry : α) {sorted : List α} (h : sorted.Pairwise r) :
    (sorted.orderedInsert r entry).filter keep =
      if keep entry then (sorted.filter keep).orderedInsert r entry
      else sorted.filter keep := by
  induction sorted with
  | nil => by_cases hkeep : keep entry <;> simp [hkeep]
  | cons first rest ih =>
      obtain ⟨hfirst, hrest⟩ := List.pairwise_cons.mp h
      by_cases hle : r entry first
      · -- everything that follows is above the new entry as well
        have hall : ∀ other ∈ (first :: rest).filter keep, r entry other :=
          fun other hother => by
            rcases List.mem_cons.mp (List.mem_filter.mp hother).1 with rfl | hother
            · exact hle
            · exact IsTrans.trans _ _ _ hle (hfirst other hother)
        rw [List.orderedInsert_cons_of_le _ _ hle, List.filter_cons,
          orderedInsert_of_forall r hall]
      · rw [List.orderedInsert_of_not_le _ _ hle, List.filter_cons, ih hrest,
          List.filter_cons]
        by_cases hkeep : keep first
        · simp only [hkeep, if_true, List.orderedInsert_cons, hle, if_false]
          split <;> rfl
        · simp [hkeep]

/-- The sort is stable, so it does not matter when entries are removed. -/
theorem insertionSort_filter (entries : List α) :
    (entries.filter keep).insertionSort r = (entries.insertionSort r).filter keep := by
  induction entries with
  | nil => rfl
  | cons entry rest ih =>
      rw [List.insertionSort_cons,
        filter_orderedInsert r keep entry (List.pairwise_insertionSort r rest),
        List.filter_cons, ← ih]
      split <;> rfl

end Sorting

/-! ## Passes -/

variable {α : Type} (verdict : α → Verdict)

/-- What a pass leaves of the entries that it looks at. -/
def attend : List α → List α
  | [] => []
  | entry :: rest =>
      match verdict entry with
      | .served => attend rest
      | .skipped => entry :: attend rest
      | .halted => entry :: rest

def pass (width : Nat) (queue : List α) : List α :=
  attend verdict (queue.take width) ++ queue.drop width

def passes (width : Nat) : Nat → List α → List α
  | 0, queue => queue
  | count + 1, queue => passes width count (pass verdict width queue)

/-- The entries that a pass gets to without being halted. -/
def reached (width : Nat) (queue : List α) : List α :=
  (queue.take width).takeWhile (verdict · ≠ .halted)

def servable (queue : List α) : List α :=
  queue.filter (verdict · = .served)

theorem mem_servable {queue : List α} {entry : α} :
    entry ∈ servable verdict queue ↔ entry ∈ queue ∧ verdict entry = .served := by
  simp [servable]

theorem attend_eq (entries : List α) :
    attend verdict entries =
      (entries.takeWhile (verdict · ≠ .halted)).filter (verdict · ≠ .served) ++
        entries.dropWhile (verdict · ≠ .halted) := by
  induction entries with
  | nil => rfl
  | cons entry rest ih =>
      cases h : verdict entry <;> simp [attend, h, ih]

theorem exists_rest (width : Nat) (queue : List α) :
    ∃ rest, queue = reached verdict width queue ++ rest ∧
      pass verdict width queue =
        (reached verdict width queue).filter (verdict · ≠ .served) ++ rest := by
  refine ⟨(queue.take width).dropWhile (verdict · ≠ .halted) ++ queue.drop width,
    ?_, ?_⟩
  · rw [reached, ← List.append_assoc, List.takeWhile_append_dropWhile,
      List.take_append_drop]
  · rw [pass, attend_eq, List.append_assoc, reached]

theorem length_reached_le (width : Nat) (queue : List α) :
    (reached verdict width queue).length ≤ width :=
  (List.takeWhile_prefix _).length_le.trans (List.length_take_le _ _)

theorem ne_halted_of_mem_reached {width : Nat} {queue : List α} {entry : α}
    (h : entry ∈ reached verdict width queue) : verdict entry ≠ .halted := by
  simpa using List.mem_takeWhile_imp h

theorem servable_eq (width : Nat) (queue : List α) :
    servable verdict queue = servable verdict (reached verdict width queue) ++
      servable verdict (pass verdict width queue) := by
  obtain ⟨rest, hqueue, hpass⟩ := exists_rest verdict width queue
  have hnone : ((reached verdict width queue).filter
      (verdict · ≠ .served)).filter (verdict · = .served) = [] := by
    simp
  rw [hpass]
  conv_lhs => rw [hqueue]
  rw [servable, List.filter_append, servable, servable, List.filter_append, hnone,
    List.nil_append]

/-! ## What is ahead of an entry -/

variable [DecidableEq α]

def ahead (entry : α) (queue : List α) : List α := queue.takeWhile (· ≠ entry)

theorem ahead_append {entry : α} {front : List α} (h : entry ∈ front)
    (rest : List α) : ahead entry (front ++ rest) = ahead entry front := by
  induction front with
  | nil => simp at h
  | cons first front ih =>
      by_cases heq : first = entry
      · simp [ahead, heq]
      · have hmem := List.mem_of_ne_of_mem (Ne.symm heq) h
        simpa [ahead, heq] using ih hmem

theorem eq_ahead_append {entry : α} {queue : List α} (h : entry ∈ queue) :
    ∃ rest, queue = ahead entry queue ++ entry :: rest := by
  induction queue with
  | nil => simp at h
  | cons first queue ih =>
      by_cases heq : first = entry
      · exact ⟨queue, by simp [ahead, heq]⟩
      · obtain ⟨rest, hrest⟩ := ih (List.mem_of_ne_of_mem (Ne.symm heq) h)
        refine ⟨rest, ?_⟩
        simpa [ahead, heq] using hrest

theorem ahead_filter {entry : α} {keep : α → Bool} (h : keep entry = true)
    (queue : List α) :
    ahead entry (queue.filter keep) = (ahead entry queue).filter keep := by
  rw [ahead, List.takeWhile_filter, ahead]
  congr 2
  funext other
  by_cases heq : other = entry <;> simp [heq, h]

theorem length_ahead_lt {entry : α} {queue : List α} (h : entry ∈ queue) :
    (ahead entry queue).length < queue.length := by
  obtain ⟨rest, hrest⟩ := eq_ahead_append h
  have hlength := congrArg List.length hrest
  simp only [List.length_append, List.length_cons] at hlength
  omega

def skippedAhead (entry : α) (queue : List α) : Nat :=
  (ahead entry queue).countP (verdict · = .skipped)

def Unhalted (entry : α) (queue : List α) : Prop :=
  ∀ other ∈ ahead entry queue, verdict other ≠ .halted

theorem mem_reached {width : Nat} {queue : List α} {entry : α}
    (h : entry ∈ queue) (hunhalted : Unhalted verdict entry queue)
    (hself : verdict entry ≠ .halted) (hlt : (ahead entry queue).length < width) :
    entry ∈ reached verdict width queue := by
  obtain ⟨rest, hrest⟩ := eq_ahead_append h
  obtain ⟨slots, rfl⟩ := Nat.exists_eq_add_of_lt hlt
  have htake : queue.take ((ahead entry queue).length + slots + 1) =
      ahead entry queue ++ entry :: rest.take slots := by
    refine (congrArg (List.take _) hrest).trans ?_
    rw [Nat.add_assoc, List.take_length_add_append, List.take_succ_cons]
  have hall : ∀ other ∈ ahead entry queue,
      decide (verdict other ≠ .halted) = true :=
    fun other hother => decide_eq_true (hunhalted other hother)
  rw [reached, htake, List.takeWhile_append_of_pos hall, List.takeWhile_cons,
    if_pos (decide_eq_true hself)]
  exact List.mem_append_right _ (.head _)

theorem ahead_eq_of_mem_reached {width : Nat} {queue : List α} {entry : α}
    (h : entry ∈ reached verdict width queue) :
    ahead entry queue = ahead entry (reached verdict width queue) := by
  obtain ⟨rest, hqueue, -⟩ := exists_rest verdict width queue
  conv_lhs => rw [hqueue]
  exact ahead_append h rest

/-! ## One pass -/

def kept (width : Nat) (queue : List α) (entry : α) : Bool :=
  ¬ (verdict entry = .served ∧ entry ∈ reached verdict width queue)

variable {verdict} {width : Nat} {queue : List α} {entry : α}

theorem kept_of_ne_served (h : verdict entry ≠ .served) :
    kept verdict width queue entry = true := by
  simp [kept, h]

theorem pass_eq_filter (hnodup : queue.Nodup) :
    pass verdict width queue = queue.filter (kept verdict width queue) := by
  obtain ⟨rest, hqueue, hpass⟩ := exists_rest verdict width queue
  have hdisjoint : ∀ other ∈ rest, other ∉ reached verdict width queue :=
    fun other hother hreached =>
      List.disjoint_of_nodup_append (hqueue ▸ hnodup) hreached hother
  have hfront : (reached verdict width queue).filter (kept verdict width queue) =
      (reached verdict width queue).filter (verdict · ≠ .served) :=
    List.filter_congr fun other hother => by simp [kept, hother]
  have hrest : rest.filter (kept verdict width queue) = rest :=
    List.filter_eq_self.mpr fun other hother => by
      simp [kept, hdisjoint other hother]
  calc pass verdict width queue
      = (reached verdict width queue).filter (kept verdict width queue) ++
          rest.filter (kept verdict width queue) := by rw [hpass, hfront, hrest]
    _ = queue.filter (kept verdict width queue) := by
        rw [← List.filter_append, ← hqueue]

theorem nodup_pass (hnodup : queue.Nodup) :
    (pass verdict width queue).Nodup := by
  rw [pass_eq_filter hnodup]
  exact hnodup.filter _

/-- A pass removes only what it serves, so the others keep their places. -/
theorem skippedAhead_pass (hnodup : queue.Nodup)
    (h : entry ∈ pass verdict width queue) :
    skippedAhead verdict entry (pass verdict width queue) =
      skippedAhead verdict entry queue := by
  rw [pass_eq_filter hnodup] at h ⊢
  rw [skippedAhead, ahead_filter (List.mem_filter.mp h).2, List.countP_filter,
    skippedAhead]
  refine List.countP_congr fun other _ => ?_
  by_cases hskipped : verdict other = .skipped
  · simp [hskipped, kept_of_ne_served]
  · simp [hskipped]

theorem unhalted_pass_iff (hnodup : queue.Nodup)
    (h : entry ∈ pass verdict width queue) :
    Unhalted verdict entry (pass verdict width queue) ↔
      Unhalted verdict entry queue := by
  rw [pass_eq_filter hnodup] at h ⊢
  rw [Unhalted, ahead_filter (List.mem_filter.mp h).2, Unhalted]
  refine ⟨fun hall other hother hhalted => ?_, fun hall other hother => ?_⟩
  · have hkept : kept verdict width queue other = true :=
      kept_of_ne_served (by simp [hhalted])
    exact hall other (List.mem_filter.mpr ⟨hother, hkept⟩) hhalted
  · exact hall other (List.mem_filter.mp hother).1

/-! ## Any number of passes -/

/--
A division of the servable entries, in their order, into batches: each fits into
a pass together with all entries that are skipped ahead of it.
-/
structure Division (verdict : α → Verdict) (width : Nat) (queue : List α)
    (batches : List (List α)) : Prop where
  flatten_eq : batches.flatten = servable verdict queue
  unhalted : ∀ batch ∈ batches, ∀ entry ∈ batch, Unhalted verdict entry queue
  fits : ∀ batch ∈ batches, ∀ entry ∈ batch,
    batch.length + skippedAhead verdict entry queue ≤ width

theorem fits_reached (h : entry ∈ servable verdict (reached verdict width queue)) :
    (servable verdict (reached verdict width queue)).length +
      skippedAhead verdict entry queue ≤ width := by
  have hmem := ((mem_servable verdict).mp h).1
  have hahead : skippedAhead verdict entry queue ≤
      (reached verdict width queue).countP (verdict · = .skipped) := by
    rw [skippedAhead, ahead_eq_of_mem_reached verdict hmem]
    exact (List.takeWhile_sublist _).countP_le
  have hcount : ∀ entries : List α, entries.countP (verdict · = .served) +
      entries.countP (verdict · = .skipped) ≤ entries.length := by
    intro entries
    induction entries with
    | nil => simp
    | cons first rest ih =>
        cases hfirst : verdict first <;> simp [hfirst] <;> omega
  have htotal := hcount (reached verdict width queue)
  have hwidth := length_reached_le verdict width queue
  rw [servable, ← List.countP_eq_length_filter]
  omega

theorem Division.cons_reached (hnodup : queue.Nodup) {batches : List (List α)}
    (h : Division verdict width (pass verdict width queue) batches) :
    Division verdict width queue
      (servable verdict (reached verdict width queue) :: batches) := by
  have hleft : ∀ batch ∈ batches, ∀ entry ∈ batch,
      entry ∈ pass verdict width queue := fun batch hbatch entry hentry =>
    ((mem_servable verdict).mp
      (h.flatten_eq ▸ List.mem_flatten.mpr ⟨batch, hbatch, hentry⟩)).1
  refine ⟨?_, fun batch hbatch entry hentry => ?_,
    fun batch hbatch entry hentry => ?_⟩
  · rw [List.flatten_cons, h.flatten_eq, ← servable_eq]
  · rcases List.mem_cons.mp hbatch with rfl | hbatch
    · have hmem := ((mem_servable verdict).mp hentry).1
      rw [Unhalted, ahead_eq_of_mem_reached verdict hmem]
      exact fun other hother => ne_halted_of_mem_reached verdict
        ((List.takeWhile_sublist _).mem hother)
    · exact (unhalted_pass_iff hnodup (hleft batch hbatch entry hentry)).mp
        (h.unhalted batch hbatch entry hentry)
  · rcases List.mem_cons.mp hbatch with rfl | hbatch
    · exact fits_reached hentry
    · rw [← skippedAhead_pass hnodup (hleft batch hbatch entry hentry)]
      exact h.fits batch hbatch entry hentry

theorem Division.mem_reached_of_cons {first : List α} {batches : List (List α)}
    (h : Division verdict width queue (first :: batches)) (hentry : entry ∈ first) :
    entry ∈ reached verdict width queue := by
  have hservable : servable verdict queue = first ++ batches.flatten := by
    rw [← h.flatten_eq, List.flatten_cons]
  obtain ⟨hmem, hserved⟩ := (mem_servable verdict).mp
    (hservable ▸ List.mem_append_left _ hentry)
  have hunhalted := h.unhalted first (.head _) entry hentry
  have hfits := h.fits first (.head _) entry hentry
  -- what is ahead of the entry is served before it in its batch, or skipped
  have hserving : (ahead entry queue).countP (verdict · = .served) < first.length := by
    have hahead : (ahead entry queue).filter (verdict · = .served) =
        ahead entry first := by
      rw [← ahead_filter (by simpa using hserved), ← servable, hservable,
        ahead_append hentry]
    rw [List.countP_eq_length_filter, hahead]
    exact length_ahead_lt hentry
  have hlength : (ahead entry queue).length =
      (ahead entry queue).countP (verdict · = .served) +
        skippedAhead verdict entry queue := by
    rw [List.length_eq_countP_add_countP (verdict · = .served), skippedAhead]
    refine congrArg _ (List.countP_congr fun other hother => ?_)
    cases hother' : verdict other with
    | halted => exact absurd hother' (hunhalted other hother)
    | _ => simp
  exact mem_reached verdict hmem hunhalted (by simp [hserved]) (by omega)

theorem Division.tail (hnodup : queue.Nodup) {first : List α}
    {batches : List (List α)}
    (h : Division verdict width queue (first :: batches)) :
    Division verdict width (pass verdict width queue)
      (batches.map (·.filter (kept verdict width queue))) := by
  have hservable : servable verdict queue = first ++ batches.flatten := by
    rw [← h.flatten_eq, List.flatten_cons]
  have hfirst : first.filter (kept verdict width queue) = [] := by
    refine List.filter_eq_nil_iff.mpr fun entry hentry => ?_
    have hserved := ((mem_servable verdict).mp
      (hservable ▸ List.mem_append_left _ hentry)).2
    simp [kept, hserved, h.mem_reached_of_cons hentry]
  have hleft : ∀ batch ∈ batches, ∀ entry ∈ batch,
      kept verdict width queue entry = true →
        entry ∈ pass verdict width queue := by
    intro batch hbatch entry hentry hkept
    have hmem : entry ∈ servable verdict queue := hservable ▸
      List.mem_append_right _ (List.mem_flatten.mpr ⟨batch, hbatch, hentry⟩)
    rw [pass_eq_filter hnodup]
    exact List.mem_filter.mpr ⟨((mem_servable verdict).mp hmem).1, hkept⟩
  refine ⟨?_, fun batch hbatch entry hentry => ?_,
    fun batch hbatch entry hentry => ?_⟩
  · calc (batches.map (·.filter (kept verdict width queue))).flatten
        = (first ++ batches.flatten).filter (kept verdict width queue) := by
          rw [List.filter_append, hfirst, List.nil_append, List.filter_flatten]
      _ = servable verdict (pass verdict width queue) := by
          rw [← hservable, servable, servable, pass_eq_filter hnodup,
            List.filter_comm]
  · obtain ⟨whole, hwhole, rfl⟩ := List.mem_map.mp hbatch
    obtain ⟨hentry, hkept⟩ := List.mem_filter.mp hentry
    exact (unhalted_pass_iff hnodup (hleft whole hwhole entry hentry hkept)).mpr
      (h.unhalted whole (.tail _ hwhole) entry hentry)
  · obtain ⟨whole, hwhole, rfl⟩ := List.mem_map.mp hbatch
    obtain ⟨hentry, hkept⟩ := List.mem_filter.mp hentry
    have hfits := h.fits whole (.tail _ hwhole) entry hentry
    have hshorter := List.length_filter_le (kept verdict width queue) whole
    rw [skippedAhead_pass hnodup (hleft whole hwhole entry hentry hkept)]
    omega

variable (verdict width) in
theorem servable_passes_eq_nil_iff (hnodup : queue.Nodup) (count : Nat) :
    servable verdict (passes verdict width count queue) = [] ↔
      ∃ batches, batches.length = count ∧ Division verdict width queue batches := by
  induction count generalizing queue with
  | zero =>
      refine ⟨fun h => ⟨[], rfl, ⟨h.symm, nofun, nofun⟩⟩, ?_⟩
      rintro ⟨batches, hlength, hdivision⟩
      rw [List.length_eq_zero_iff] at hlength
      rw [passes, ← hdivision.flatten_eq, hlength, List.flatten_nil]
  | succ count ih =>
      rw [passes, ih (nodup_pass hnodup)]
      constructor
      · rintro ⟨batches, hlength, hdivision⟩
        exact ⟨_, by rw [List.length_cons, hlength], hdivision.cons_reached hnodup⟩
      · rintro ⟨batches, hlength, hdivision⟩
        cases batches with
        | nil => cases hlength
        | cons first batches =>
            exact ⟨_, by simpa using hlength, hdivision.tail hnodup⟩

omit [DecidableEq α] in
theorem mem_of_mem_passes {count : Nat}
    (h : entry ∈ passes verdict width count queue) : entry ∈ queue := by
  induction count generalizing queue with
  | zero => exact h
  | succ count ih =>
      have hmem : entry ∈ pass verdict width queue := ih h
      obtain ⟨rest, hqueue, hpass⟩ := exists_rest verdict width queue
      rw [hpass] at hmem
      rw [hqueue]
      exact (List.filter_sublist.append_right rest).mem hmem

theorem mem_passes_of_ne_served (hnodup : queue.Nodup) (h : entry ∈ queue)
    (hverdict : verdict entry ≠ .served) (count : Nat) :
    entry ∈ passes verdict width count queue := by
  induction count generalizing queue with
  | zero => exact h
  | succ count ih =>
      refine ih (nodup_pass hnodup) ?_
      rw [pass_eq_filter hnodup]
      exact List.mem_filter.mpr ⟨h, kept_of_ne_served hverdict⟩

end Backlog

end RealEstateTracker.Foundation
