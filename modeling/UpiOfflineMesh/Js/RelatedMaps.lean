import Mathlib.Data.List.Forall2
import Mathlib.Data.Option.Basic
import UpiOfflineMesh.Js.KeyedMap

/-!
# Maps related value by value

Two maps hold related values in the same order. When related values have related keys, and
keys are related one to one, lookups and updates under related keys do the same in both.
-/

namespace Js

namespace KeyedMap

universe u u' v v'

variable {κ : Type u} {κ' : Type u'} {ν : Type v} {ν' : Type v'} {key : ν → κ} {key' : ν' → κ'}

/-- The values are related, one by one in insertion order. -/
def Related (V : ν → ν' → Prop) (m : KeyedMap key) (m' : KeyedMap key') : Prop :=
  List.Forall₂ V m.values m'.values

/-- Keys are related one to one, and related values have related keys. -/
structure Keyed (K : κ → κ' → Prop) (V : ν → ν' → Prop) (key : ν → κ) (key' : ν' → κ') : Prop where
  keys : Relator.BiUnique K
  key : ∀ {w w'}, V w w' → K (key w) (key' w')

variable {K : κ → κ' → Prop} {V : ν → ν' → Prop} {m : KeyedMap key} {m' : KeyedMap key'}

theorem Related.empty : Related V (empty : KeyedMap key) (empty : KeyedMap key') := .nil

theorem Related.size (h : Related V m m') : m.size = m'.size := h.length_eq

/-- Related values have a key or another alike. -/
theorem Keyed.eq_iff {w : ν} {w' : ν'} {k : κ} {k' : κ'} (hkeyed : Keyed K V key key')
    (hw : V w w') (hk : K k k') : key w = k ↔ key' w' = k' :=
  ⟨fun h => hkeyed.keys.2 (hkeyed.key hw) (h ▸ hk), fun h => hkeyed.keys.1 (hkeyed.key hw) (h ▸ hk)⟩

variable [DecidableEq κ] [DecidableEq κ']

theorem Related.has (h : Related V m m') (hkeyed : Keyed K V key key') {k : κ} {k' : κ'}
    (hk : K k k') : m.has k = m'.has k' := by
  unfold Related at h
  unfold KeyedMap.has
  generalize m.values = values, m'.values = values' at h ⊢
  induction h with
  | nil => rfl
  | cons hw _ ih => simp only [List.any_cons, ih, hkeyed.eq_iff hw hk]

theorem Related.get (h : Related V m m') (hkeyed : Keyed K V key key') {k : κ} {k' : κ'}
    (hk : K k k') : Option.Rel V (m.get k) (m'.get k') := by
  unfold Related at h
  unfold KeyedMap.get
  generalize m.values = values, m'.values = values' at h ⊢
  induction h with
  | nil => exact .none
  | @cons w w' _ _ hw _ ih =>
    rw [List.find?_cons, List.find?_cons]
    by_cases hkey : key w = k
    · rw [decide_eq_true hkey, decide_eq_true ((hkeyed.eq_iff hw hk).mp hkey)]
      exact .some hw
    · rw [decide_eq_false hkey, decide_eq_false (hkey ∘ (hkeyed.eq_iff hw hk).mpr)]
      exact ih

/-- Setting related values keeps the maps related. -/
theorem Related.set (h : Related V m m') (hkeyed : Keyed K V key key') {w : ν} {w' : ν'}
    (hw : V w w') : Related V (m.set w) (m'.set w') := by
  have hhas := h.has hkeyed (hkeyed.key hw)
  unfold Related
  cases hold : m'.has (key' w') with
  | true =>
    rw [values_set_of_has (hhas.trans hold), values_set_of_has hold]
    refine List.rel_map (fun x x' hx => ?_) h
    have hsame := hkeyed.eq_iff hx (hkeyed.key hw)
    by_cases hkey : key x = key w
    · rw [if_pos hkey, if_pos (hsame.mp hkey)]
      exact hw
    · rw [if_neg hkey, if_neg (hkey ∘ hsame.mpr)]
      exact hx
  | false =>
    rw [values_set_of_not_has (hhas.trans hold), values_set_of_not_has hold]
    exact List.rel_append h (.cons hw .nil)

end KeyedMap

end Js
