import Mathlib.Algebra.BigOperators.Group.List.Basic
import Mathlib.Data.List.Nodup
import Mathlib.Tactic.Abel

/-!
# JavaScript maps whose values know their key

Every `Map` and `Set` of the program is written through `map.set(key(v), v)`:
accounts under their VPA, cache entries under their hash, set members under
themselves. A `KeyedMap` is such a map, in insertion order. That no two values
share a key is part of the structure, so a lookup has at most one answer and no
later proof has to exclude a value stored under a foreign key.
-/

namespace Js

universe u v

/-- A JavaScript `Map` storing each value under `key value`, as its values in
insertion order. A `Set` is the instance `key = id`. -/
@[ext] structure KeyedMap {κ : Type u} {ν : Type v} (key : ν → κ) where
  /-- The stored values, in the order in which iteration meets them. -/
  values : List ν
  /-- No key is stored twice. -/
  nodup : (values.map key).Nodup

namespace KeyedMap

variable {κ : Type u} {ν : Type v} {key : ν → κ}

/-- `new Map()`. -/
def empty : KeyedMap key := ⟨[], List.nodup_nil⟩

/-- The entries satisfying `p`, in their order. -/
def filter (m : KeyedMap key) (p : ν → Bool) : KeyedMap key :=
  ⟨m.values.filter p, (List.Sublist.map key List.filter_sublist).nodup m.nodup⟩

/-- `map.size`. -/
def size (m : KeyedMap key) : ℕ := m.values.length

@[simp] theorem values_empty : (empty : KeyedMap key).values = [] := rfl

@[simp] theorem values_filter (m : KeyedMap key) (p : ν → Bool) :
    (m.filter p).values = m.values.filter p := rfl

/-- Two values stored under one key are one value. -/
theorem eq_of_key_eq (m : KeyedMap key) {v w : ν} (hv : v ∈ m.values) (hw : w ∈ m.values)
    (h : key v = key w) : v = w :=
  List.inj_on_of_nodup_map m.nodup hv hw h

variable [DecidableEq κ]

instance [DecidableEq ν] : DecidableEq (KeyedMap key) := fun _ _ =>
  decidable_of_iff _ KeyedMap.ext_iff.symm

/-- `map.get(k)`. -/
def get (m : KeyedMap key) (k : κ) : Option ν := m.values.find? (fun v => key v = k)

/-- `map.has(k)`. -/
def has (m : KeyedMap key) (k : κ) : Bool := m.values.any (fun v => key v = k)

/-- Overwriting values by values of the same key keeps the keys in place. -/
theorem map_key_replace (values : List ν) (v : ν) :
    (values.map (fun w => if key w = key v then v else w)).map key = values.map key := by
  rw [List.map_map]
  apply List.map_congr_left
  intro w _
  by_cases h : key w = key v
  · simp [h]
  · simp [h]

/-- `map.set(key(v), v)`: an existing key keeps its position, a new one goes last. -/
def set (m : KeyedMap key) (v : ν) : KeyedMap key :=
  if h : m.has (key v) = true then
    ⟨m.values.map (fun w => if key w = key v then v else w), by
      rw [map_key_replace]
      exact m.nodup⟩
  else
    ⟨m.values ++ [v], by
      have hfresh : ∀ w ∈ m.values, key w ≠ key v := by simpa [has] using h
      rw [List.map_append, List.map_singleton, ← List.concat_eq_append, List.nodup_concat]
      exact ⟨by simpa using hfresh, m.nodup⟩⟩

/-- Stores a value unless its key is taken. -/
def add (m : KeyedMap key) (v : ν) : KeyedMap key := if m.has (key v) then m else m.set v

/-- Changes every value in place, under its key. -/
def mapValues (m : KeyedMap key) (f : ν → ν) (hf : ∀ v, key (f v) = key v) : KeyedMap key :=
  ⟨m.values.map f, by
    rw [List.map_map, show key ∘ f = key from funext hf]
    exact m.nodup⟩

/-- `map.delete(k)`. -/
def delete (m : KeyedMap key) (k : κ) : KeyedMap key := m.filter (fun v => key v ≠ k)

/-! ### Lookups -/

@[simp] theorem get_empty (k : κ) : (empty : KeyedMap key).get k = none := rfl

@[simp] theorem has_empty (k : κ) : (empty : KeyedMap key).has k = false := rfl

/-- A lookup answers `v` exactly when `v` is stored and has the key asked for. -/
theorem get_eq_some_iff (m : KeyedMap key) {k : κ} {v : ν} :
    m.get k = some v ↔ v ∈ m.values ∧ key v = k := by
  constructor
  · intro h
    exact ⟨List.mem_of_find?_eq_some h, by simpa using List.find?_some h⟩
  · rintro ⟨hmem, hkey⟩
    cases hget : m.get k with
    | none =>
      have hnone := List.find?_eq_none.mp hget v hmem
      simp [hkey] at hnone
    | some w =>
      have hw : w ∈ m.values := List.mem_of_find?_eq_some hget
      have hkw : key w = k := by simpa using List.find?_some hget
      rw [m.eq_of_key_eq hw hmem (hkw.trans hkey.symm)]

theorem get_eq_none_iff (m : KeyedMap key) {k : κ} :
    m.get k = none ↔ ∀ v ∈ m.values, key v ≠ k := by
  simp [get]

/-- The value found under a key carries that key. -/
theorem key_of_get {m : KeyedMap key} {k : κ} {v : ν} (h : m.get k = some v) : key v = k :=
  (m.get_eq_some_iff.mp h).2

theorem mem_of_get {m : KeyedMap key} {k : κ} {v : ν} (h : m.get k = some v) : v ∈ m.values :=
  (m.get_eq_some_iff.mp h).1

theorem get_key_of_mem (m : KeyedMap key) {v : ν} (h : v ∈ m.values) : m.get (key v) = some v :=
  m.get_eq_some_iff.mpr ⟨h, rfl⟩

theorem has_iff_mem (m : KeyedMap key) {k : κ} :
    m.has k = true ↔ ∃ v ∈ m.values, key v = k := by
  simp [has]

/-- `has` and `get` look at the same key. -/
theorem has_iff_get (m : KeyedMap key) {k : κ} : m.has k = true ↔ ∃ v, m.get k = some v := by
  simp only [has_iff_mem, get_eq_some_iff]

theorem has_eq_false_iff (m : KeyedMap key) {k : κ} : m.has k = false ↔ m.get k = none := by
  rw [← Bool.not_eq_true, has_iff_get, Option.eq_none_iff_forall_ne_some]
  push Not
  rfl

/-- A successful lookup is a stored key. -/
theorem has_of_get {m : KeyedMap key} {k : κ} {v : ν} (h : m.get k = some v) : m.has k = true :=
  m.has_iff_get.mpr ⟨v, h⟩

/-! ### Updates -/

theorem values_set_of_has {m : KeyedMap key} {v : ν} (h : m.has (key v) = true) :
    (m.set v).values = m.values.map (fun w => if key w = key v then v else w) := by
  simp [set, h]

theorem values_set_of_not_has {m : KeyedMap key} {v : ν} (h : m.has (key v) = false) :
    (m.set v).values = m.values ++ [v] := by
  simp [set, h]

/-- After a `set`, the map holds the new value and the old values of other keys. -/
theorem mem_values_set (m : KeyedMap key) {v w : ν} :
    w ∈ (m.set v).values ↔ w = v ∨ (w ∈ m.values ∧ key w ≠ key v) := by
  cases h : m.has (key v) with
  | true =>
    obtain ⟨old, hold, hkey⟩ := m.has_iff_mem.mp h
    rw [values_set_of_has h, List.mem_map]
    constructor
    · rintro ⟨x, hx, rfl⟩
      by_cases hxv : key x = key v
      · simp [hxv]
      · simp [hxv, hx]
    · rintro (rfl | ⟨hw, hne⟩)
      · exact ⟨old, hold, by simp [hkey]⟩
      · exact ⟨w, hw, by simp [hne]⟩
  | false =>
    have hfresh := m.get_eq_none_iff.mp (m.has_eq_false_iff.mp h)
    rw [values_set_of_not_has h, List.mem_append, List.mem_singleton]
    constructor
    · rintro (hw | hw)
      · exact Or.inr ⟨hw, hfresh w hw⟩
      · exact Or.inl hw
    · rintro (hw | ⟨hw, _⟩)
      · exact Or.inr hw
      · exact Or.inl hw

/-- A `set` changes the lookup of its own key only. -/
theorem get_set (m : KeyedMap key) (v : ν) (k : κ) :
    (m.set v).get k = if key v = k then some v else m.get k := by
  by_cases hk : key v = k
  · rw [if_pos hk, get_eq_some_iff, mem_values_set]
    exact ⟨Or.inl rfl, hk⟩
  · rw [if_neg hk]
    apply Option.ext
    intro w
    rw [get_eq_some_iff, get_eq_some_iff, mem_values_set]
    constructor
    · rintro ⟨rfl | ⟨hw, _⟩, hkey⟩
      · exact absurd hkey hk
      · exact ⟨hw, hkey⟩
    · rintro ⟨hw, hkey⟩
      exact ⟨Or.inr ⟨hw, fun h => hk (h ▸ hkey)⟩, hkey⟩

@[simp] theorem get_set_self (m : KeyedMap key) (v : ν) : (m.set v).get (key v) = some v := by
  rw [get_set, if_pos rfl]

theorem get_set_of_ne (m : KeyedMap key) {v : ν} {k : κ} (h : key v ≠ k) :
    (m.set v).get k = m.get k := by
  rw [get_set, if_neg h]

@[simp] theorem has_set (m : KeyedMap key) (v : ν) (k : κ) :
    (m.set v).has k = (decide (key v = k) || m.has k) := by
  rw [Bool.eq_iff_iff, Bool.or_eq_true, decide_eq_true_iff, has_iff_get, has_iff_get, get_set]
  by_cases hk : key v = k
  · simp [hk]
  · simp [hk]

/-- An `add` answers what was there, or else the new value under its key. -/
theorem get_add (m : KeyedMap key) (v : ν) (k : κ) :
    (m.add v).get k = (m.get k).or (if key v = k then some v else none) := by
  rw [add]
  split
  case isTrue hhas =>
    by_cases hk : key v = k
    · obtain ⟨old, hold⟩ := m.has_iff_get.mp hhas
      rw [hk] at hold
      simp [hold]
    · simp [hk]
  case isFalse hnew =>
    have hnone := m.has_eq_false_iff.mp (Bool.eq_false_iff.mpr hnew)
    rw [get_set]
    by_cases hk : key v = k
    · rw [hk] at hnone
      simp [hk, hnone]
    · simp [hk]

/-- **First come, first served:** adding a list of values answers what was there, or
else the first value of the list under its key. -/
theorem get_foldl_add (m : KeyedMap key) (vs : List ν) (k : κ) :
    (vs.foldl add m).get k = (m.get k).or (vs.find? fun v => key v = k) := by
  induction vs generalizing m with
  | nil => simp
  | cons v vs ih =>
    rw [List.foldl_cons, ih, get_add, List.find?_cons, Option.or_assoc]
    by_cases hk : key v = k
    · simp [hk]
    · simp [hk]

/-- Changing the values in place changes the answers alike. -/
theorem get_mapValues (m : KeyedMap key) (f : ν → ν) (hf : ∀ v, key (f v) = key v) (k : κ) :
    (m.mapValues f hf).get k = (m.get k).map f := by
  rw [get, mapValues, List.find?_map, get]
  simp only [Function.comp_def, hf]

omit [DecidableEq κ] in
@[simp] theorem values_mapValues (m : KeyedMap key) (f : ν → ν) (hf : ∀ v, key (f v) = key v) :
    (m.mapValues f hf).values = m.values.map f := rfl

/-- Setting values of new and different keys one after the other appends them. -/
theorem values_foldl_set (m : KeyedMap key) {vs : List ν}
    (h : ((m.values ++ vs).map key).Nodup) : (vs.foldl set m).values = m.values ++ vs := by
  induction vs generalizing m with
  | nil => simp
  | cons v vs ih =>
    have hfresh : m.has (key v) = false := by
      rw [has_eq_false_iff, get_eq_none_iff]
      intro w hw heq
      rw [List.map_append, List.nodup_append] at h
      exact h.2.2 _ (List.mem_map_of_mem hw) _ (List.mem_map_of_mem List.mem_cons_self) heq
    have hvalues := values_set_of_not_has hfresh
    rw [List.foldl_cons, ih, hvalues, List.append_assoc, List.singleton_append]
    rw [hvalues, List.append_assoc, List.singleton_append]
    exact h

/-- A projection on which old and new value agree is unchanged by replacing. -/
theorem map_values_set_of_get {β : Type*} {m : KeyedMap key} {v old : ν} (f : ν → β)
    (hget : m.get (key v) = some old) (hf : f v = f old) :
    (m.set v).values.map f = m.values.map f := by
  rw [values_set_of_has (has_of_get hget), List.map_map]
  apply List.map_congr_left
  intro w hw
  by_cases hkey : key w = key v
  · have hwold : w = old := m.eq_of_key_eq hw (mem_of_get hget) (hkey.trans (key_of_get hget).symm)
    rw [Function.comp_apply, if_pos hkey, hf, hwold]
  · rw [Function.comp_apply, if_neg hkey]

/-- Replacing one value moves a sum over the map by the difference of its terms. -/
theorem sum_values_set {M : Type*} [AddCommMonoid M] {m : KeyedMap key} {v old : ν} (f : ν → M)
    (hget : m.get (key v) = some old) :
    ((m.set v).values.map f).sum + f old = (m.values.map f).sum + f v := by
  obtain ⟨hmem, hkey⟩ := m.get_eq_some_iff.mp hget
  obtain ⟨before, after, hsplit⟩ := List.append_of_mem hmem
  have hnodup := m.nodup
  rw [hsplit, List.map_append, List.map_cons] at hnodup
  have hmid := List.nodup_middle.mp hnodup
  have hkeep : ∀ w ∈ before ++ after, key w ≠ key v := by
    intro w hw heq
    apply (List.nodup_cons.mp hmid).1
    rw [← List.map_append, hkey, ← heq]
    exact List.mem_map_of_mem hw
  have hsame : ∀ part : List ν, (∀ w ∈ part, key w ≠ key v) →
      part.map (fun w => if key w = key v then v else w) = part := by
    intro part hpart
    conv_rhs => rw [← List.map_id part]
    apply List.map_congr_left
    intro w hw
    simp [hpart w hw]
  rw [values_set_of_has (has_of_get hget), hsplit, List.map_append, List.map_cons,
    hsame before (fun w hw => hkeep w (List.mem_append_left _ hw)),
    hsame after (fun w hw => hkeep w (List.mem_append_right _ hw)), if_pos hkey]
  simp only [List.map_append, List.map_cons, List.sum_append, List.sum_cons]
  abel

/-- There is at most one value under a key. -/
theorem filter_key (m : KeyedMap key) (k : κ) :
    m.values.filter (fun v => key v = k) = (m.get k).toList := by
  cases hget : m.get k with
  | none =>
    rw [Option.toList_none, List.filter_eq_nil_iff]
    intro v hv
    simpa using m.get_eq_none_iff.mp hget v hv
  | some v =>
    obtain ⟨hv, hkey⟩ := m.get_eq_some_iff.mp hget
    have hnodup : (m.values.filter fun v => key v = k).Nodup :=
      (List.Nodup.of_map key m.nodup).filter _
    rw [Option.toList_some, ← List.perm_singleton,
      List.perm_ext_iff_of_nodup hnodup (List.nodup_singleton v)]
    intro w
    simp only [List.mem_filter, decide_eq_true_eq, List.mem_singleton]
    constructor
    · rintro ⟨hw, hkey'⟩
      exact m.eq_of_key_eq hw hv (hkey'.trans hkey.symm)
    · rintro rfl
      exact ⟨hv, hkey⟩

/-- Filtering keeps a lookup exactly when it keeps the value found. -/
theorem get_filter (m : KeyedMap key) (p : ν → Bool) (k : κ) :
    (m.filter p).get k = (m.get k).filter p := by
  apply Option.ext
  intro w
  rw [get_eq_some_iff, values_filter, List.mem_filter, Option.filter_eq_some_iff, get_eq_some_iff]
  tauto

theorem get_delete (m : KeyedMap key) (k l : κ) :
    (m.delete k).get l = if l = k then none else m.get l := by
  apply Option.ext
  intro w
  rw [delete, get_filter, Option.filter_eq_some_iff, get_eq_some_iff]
  by_cases h : l = k
  · simp only [if_pos h, reduceCtorEq, iff_false]
    rintro ⟨⟨_, hkey⟩, hne⟩
    simp [hkey, h] at hne
  · rw [if_neg h, get_eq_some_iff]
    constructor
    · exact fun hw => hw.1
    · rintro ⟨hw, hkey⟩
      exact ⟨⟨hw, hkey⟩, by simp [hkey, h]⟩

end KeyedMap

end Js
