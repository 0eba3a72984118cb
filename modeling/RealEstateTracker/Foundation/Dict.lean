import Mathlib.Data.List.Nodup
import Mathlib.Data.List.Sort
import Mathlib.Tactic

/-!
# Dictionaries

A dictionary keeps its entries in the order in which their keys were first set.
-/

namespace RealEstateTracker.Foundation

theorem nodup_map_concat {ρ κ : Type} {rows : List ρ} {key : ρ → κ} {row : ρ}
    (h : (rows.map key).Nodup) (hnew : ∀ stored ∈ rows, key stored ≠ key row) :
    ((rows ++ [row]).map key).Nodup := by
  rw [List.map_append, List.map_singleton, List.nodup_append]
  refine ⟨h, List.nodup_singleton _, ?_⟩
  rintro _ hstored _ hrow heq
  obtain ⟨stored, hmem, rfl⟩ := List.mem_map.mp hstored
  exact hnew stored hmem (heq.trans (List.mem_singleton.mp hrow))

structure Dict (κ ν : Type) where
  entries : List (κ × ν)
  keysNodup : (entries.map (·.1)).Nodup

namespace Dict

variable {κ ν : Type}

def empty : Dict κ ν := ⟨[], List.nodup_nil⟩

def keys (d : Dict κ ν) : List κ := d.entries.map (·.1)

variable [DecidableEq κ]

def get (d : Dict κ ν) (key : κ) : Option ν :=
  (d.entries.find? (·.1 = key)).map (·.2)

def replaced (entries : List (κ × ν)) (key : κ) (value : ν) : List (κ × ν) :=
  entries.map fun entry => if entry.1 = key then (key, value) else entry

theorem keys_replaced (entries : List (κ × ν)) (key : κ) (value : ν) :
    (replaced entries key value).map (·.1) = entries.map (·.1) := by
  rw [replaced, List.map_map]
  refine List.map_congr_left fun entry _ => ?_
  by_cases h : entry.1 = key <;> simp [h]

def set (d : Dict κ ν) (key : κ) (value : ν) : Dict κ ν :=
  if h : key ∈ d.keys then
    ⟨replaced d.entries key value, by rw [keys_replaced]; exact d.keysNodup⟩
  else
    ⟨d.entries ++ [(key, value)], by
      rw [List.map_append, List.map_singleton, List.nodup_append]
      refine ⟨d.keysNodup, List.nodup_singleton _, ?_⟩
      rintro a ha b hb rfl
      obtain rfl : a = key := List.mem_singleton.mp hb
      exact h ha⟩

@[simp] theorem get_empty (key : κ) : (empty : Dict κ ν).get key = none := rfl

theorem get_eq_none_iff {d : Dict κ ν} {key : κ} :
    d.get key = none ↔ key ∉ d.keys := by
  simp only [get, keys, Option.map_eq_none_iff, List.find?_eq_none, List.mem_map,
    decide_eq_true_eq, not_exists, not_and]

theorem get_eq_some_iff {d : Dict κ ν} {key : κ} {value : ν} :
    d.get key = some value ↔ (key, value) ∈ d.entries := by
  constructor
  · intro h
    obtain ⟨⟨key', value'⟩, hfind, rfl⟩ := Option.map_eq_some_iff.mp h
    obtain rfl : key' = key := by simpa using List.find?_some hfind
    exact List.mem_of_find?_eq_some hfind
  · intro h
    obtain ⟨value', hvalue⟩ : ∃ value', d.get key = some value' := by
      refine Option.ne_none_iff_exists'.mp fun hnone => ?_
      exact get_eq_none_iff.mp hnone (List.mem_map.mpr ⟨_, h, rfl⟩)
    obtain ⟨⟨key', value''⟩, hfind, rfl⟩ := Option.map_eq_some_iff.mp hvalue
    obtain rfl : key' = key := by simpa using List.find?_some hfind
    have heq := List.inj_on_of_nodup_map d.keysNodup h
      (List.mem_of_find?_eq_some hfind) rfl
    rw [hvalue, ← congrArg Prod.snd heq]

theorem find?_replaced {entries : List (κ × ν)} {key key' : κ} {value : ν} :
    (replaced entries key value).find? (·.1 = key') =
      (entries.find? (·.1 = key')).map
        fun entry => if entry.1 = key then (key, value) else entry := by
  rw [replaced, List.find?_map]
  congr 1
  refine congrArg (fun test => entries.find? test) (funext fun entry => ?_)
  by_cases h : entry.1 = key <;> simp [h]

@[simp] theorem get_set_self (d : Dict κ ν) (key : κ) (value : ν) :
    (d.set key value).get key = some value := by
  unfold set get
  split
  · next h =>
    rw [find?_replaced]
    cases hfind : d.entries.find? (·.1 = key) with
    | none =>
        have hnone : d.get key = none := by simp [get, hfind]
        exact absurd h (get_eq_none_iff.mp hnone)
    | some entry =>
        obtain rfl : entry.1 = key := by simpa using List.find?_some hfind
        simp
  · next h =>
    have hnone : d.entries.find? (·.1 = key) = none := by
      simpa [get] using get_eq_none_iff.mpr h
    simp [List.find?_append, hnone]

theorem get_set_ne (d : Dict κ ν) {key key' : κ} (value : ν) (h : key ≠ key') :
    (d.set key value).get key' = d.get key' := by
  unfold set get
  split
  · rw [find?_replaced]
    cases hfind : d.entries.find? (·.1 = key') with
    | none => simp
    | some entry =>
        obtain rfl : entry.1 = key' := by simpa using List.find?_some hfind
        simp [Ne.symm h]
  · simp [List.find?_append, h]

theorem get_set (d : Dict κ ν) (key key' : κ) (value : ν) :
    (d.set key value).get key' =
      if key = key' then some value else d.get key' := by
  split
  · next h => rw [h, get_set_self]
  · next h => exact get_set_ne d value h

theorem insertionSort_entries {ν : Type} {κ : Type} [LinearOrder κ]
    {d : Dict κ ν} {keys : List κ} (hsorted : keys.Pairwise (· < ·))
    (hkeys : ∀ key ∈ d.keys, key ∈ keys) :
    d.entries.insertionSort (fun a b => a.1 ≤ b.1) =
      keys.filterMap fun key => (d.get key).map fun value => (key, value) := by
  have hright : (keys.filterMap fun key =>
      (d.get key).map fun value => (key, value)).Pairwise
        fun a b => a.1 < b.1 := by
    refine List.Pairwise.filterMap _ (fun a b hab => ?_) hsorted
    rintro _ ha _ hb
    obtain ⟨x, -, rfl⟩ := Option.map_eq_some_iff.mp ha
    obtain ⟨y, -, rfl⟩ := Option.map_eq_some_iff.mp hb
    exact hab
  have hmem : ∀ entry, entry ∈ d.entries ↔ entry ∈ keys.filterMap fun key =>
      (d.get key).map fun value => (key, value) := by
    rintro ⟨key, value⟩
    rw [← get_eq_some_iff, List.mem_filterMap]
    constructor
    · intro hget
      refine ⟨key, hkeys key (List.mem_map_of_mem (get_eq_some_iff.mp hget)), ?_⟩
      simp [hget]
    · rintro ⟨key', -, hvalue⟩
      obtain ⟨value', hget, heq⟩ := Option.map_eq_some_iff.mp hvalue
      obtain ⟨rfl, rfl⟩ := Prod.mk.inj heq
      exact hget
  have hperm : (d.entries.insertionSort fun a b => a.1 ≤ b.1).Perm
      (keys.filterMap fun key => (d.get key).map fun value => (key, value)) := by
    refine (List.perm_insertionSort _ _).trans
      ((List.perm_ext_iff_of_nodup ?_ ?_).mpr hmem)
    · exact d.keysNodup.of_map
    · exact hright.imp fun hlt heq => absurd (congrArg Prod.fst heq) hlt.ne
  have hleft := List.pairwise_insertionSort (fun a b : κ × ν => a.1 ≤ b.1) d.entries
  refine hperm.eq_of_pairwise (fun a b ha hb hab hba => ?_) hleft
    (hright.imp le_of_lt)
  have ha' := (List.perm_insertionSort _ _).mem_iff.mp ha
  have hb' := (List.perm_insertionSort _ _).mem_iff.mp (hperm.mem_iff.mpr hb)
  exact List.inj_on_of_nodup_map d.keysNodup ha' hb' (le_antisymm hab hba)

end Dict

end RealEstateTracker.Foundation
