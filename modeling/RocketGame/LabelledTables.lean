import Mathlib.Data.List.AList

/-!
Tables of values under distinct keys, where each value carries a label. Taking
the entries with another label stands for taking the other keys exactly as long
as no two keys share a label. What only removes entries or rewrites values
under their labels keeps the labels distinct; a new key keeps them distinct
when its label is new.
-/
namespace RocketGame.LabelledTables

variable {κ ν ι : Type*}

abbrev Table (κ ν : Type*) := AList fun _ : κ => ν

namespace Table

def mapValues (f : ν → ν) (t : Table κ ν) : Table κ ν :=
  ⟨t.entries.map (Sigma.map id fun _ => f), List.NodupKeys.map₂ _ _ t.nodupKeys⟩

variable [DecidableEq κ]

def eraseAll (ks : List κ) (t : Table κ ν) : Table κ ν := ks.foldl (fun t k => t.erase k) t

theorem lookup_mapValues (f : ν → ν) (t : Table κ ν) (k : κ) :
    (mapValues f t).lookup k = (t.lookup k).map f := List.dlookup_map₂ k

theorem lookup_eraseAll (ks : List κ) (t : Table κ ν) (k : κ) :
    (eraseAll ks t).lookup k = if k ∈ ks then none else t.lookup k := by
  induction ks generalizing t with
  | nil => rfl
  | cons k' ks ih =>
    have hstep : eraseAll (k' :: ks) t = eraseAll ks (t.erase k') := rfl
    rw [hstep, ih]
    by_cases hk : k = k'
    · subst hk
      simp only [AList.lookup_erase, ite_self, List.mem_cons_self, if_true]
    · simp only [AList.lookup_erase_ne hk, List.mem_cons, hk, false_or]

end Table

open Table

variable [DecidableEq κ] {label : ν → ι} {t u : Table κ ν} {k : κ} {v : ν} {l : ι}

def labelOf (label : ν → ι) (t : Table κ ν) (k : κ) : Option ι := (t.lookup k).map label

def DistinctLabels (label : ν → ι) (t : Table κ ν) : Prop :=
  ∀ k k' l, labelOf label t k = some l → labelOf label t k' = some l → k = k'

/-- The keys whose value has another label than the given one. -/
def keysWithOther [DecidableEq ι] (label : ν → ι) (l : ι) (t : Table κ ν) : List κ :=
  (t.entries.filter fun b => label b.2 ≠ l).map Sigma.fst

theorem labelOf_eq_some : labelOf label t k = some l ↔ ∃ v, t.lookup k = some v ∧ label v = l :=
  Option.map_eq_some_iff

theorem labelOf_eq_none : labelOf label t k = none ↔ k ∉ t :=
  Option.map_eq_none_iff.trans AList.lookup_eq_none

theorem labelOf_insert (label : ν → ι) (t : Table κ ν) (k : κ) (v : ν) :
    labelOf label (t.insert k v) = Function.update (labelOf label t) k (some (label v)) := by
  funext k'
  by_cases hk : k' = k
  · subst hk
    rw [Function.update_self, labelOf, AList.lookup_insert, Option.map_some]
  · rw [Function.update_of_ne hk, labelOf, AList.lookup_insert_ne hk, labelOf]

theorem labelOf_mapValues {f : ν → ν} (hf : ∀ v, label (f v) = label v) (t : Table κ ν) :
    labelOf label (mapValues f t) = labelOf label t := by
  funext k
  rw [labelOf, lookup_mapValues, Option.map_map, labelOf]
  congr 1
  exact funext hf

theorem labelOf_eraseAll {ks : List κ} (h : labelOf label (eraseAll ks t) k = some l) :
    labelOf label t k = some l := by
  rw [labelOf, lookup_eraseAll] at h
  split at h
  · cases h
  · exact h

theorem distinctLabels_empty (label : ν → ι) : DistinctLabels label (∅ : Table κ ν) := by
  intro k k' l hk
  rw [labelOf_eq_none.mpr (AList.notMem_empty k)] at hk
  cases hk

/-- Entries may go, and values may change under their labels. -/
theorem DistinctLabels.of_labelOf (h : DistinctLabels label t)
    (hsub : ∀ k l, labelOf label u k = some l → labelOf label t k = some l) :
    DistinctLabels label u := by
  intro k k' l hk hk'
  exact h k k' l (hsub k l hk) (hsub k' l hk')

/-- One key entered under a label that no other key has. -/
theorem DistinctLabels.of_update (h : DistinctLabels label t)
    (hu : labelOf label u = Function.update (labelOf label t) k (some l))
    (hnew : ∀ k', labelOf label t k' = some l → k' = k) : DistinctLabels label u := by
  intro k₁ k₂ l' h₁ h₂
  rw [hu, Function.update_apply] at h₁ h₂
  split at h₁ <;> split at h₂
  · next h₁' h₂' => rw [h₁', h₂']
  · next h₁' _ =>
      rw [← h₁] at h₂
      exact h₁'.trans (hnew k₂ h₂).symm
  · next _ h₂' =>
      rw [← h₂] at h₁
      exact (hnew k₁ h₁).trans h₂'.symm
  · exact h k₁ k₂ l' h₁ h₂

section Others

variable [DecidableEq ι]

theorem mem_keysWithOther : k ∈ keysWithOther label l t ↔
    ∃ l', labelOf label t k = some l' ∧ l' ≠ l := by
  rw [keysWithOther, List.mem_map]
  constructor
  · rintro ⟨⟨k, v⟩, hmem, rfl⟩
    obtain ⟨hentry, hlabel⟩ := List.mem_filter.mp hmem
    have hlookup : t.lookup k = some v := AList.mem_lookup_iff.mpr hentry
    exact ⟨label v, labelOf_eq_some.mpr ⟨v, hlookup, rfl⟩, of_decide_eq_true hlabel⟩
  · rintro ⟨l', hl', hne⟩
    obtain ⟨v, hlookup, rfl⟩ := labelOf_eq_some.mp hl'
    have hentry : ⟨k, v⟩ ∈ t.entries := AList.mem_lookup_iff.mp hlookup
    exact ⟨⟨k, v⟩, List.mem_filter.mpr ⟨hentry, decide_eq_true hne⟩, rfl⟩

omit [DecidableEq κ] in
theorem nodup_keysWithOther (label : ν → ι) (l : ι) (t : Table κ ν) :
    (keysWithOther label l t).Nodup :=
  t.keys_nodup.sublist (List.filter_sublist.map Sigma.fst)

/-- A key never takes itself. -/
theorem notMem_keysWithOther (h : labelOf label t k = some l) : k ∉ keysWithOther label l t := by
  rw [mem_keysWithOther, h]
  rintro ⟨_, hl, hne⟩
  exact hne (Option.some.inj hl).symm

/-- It takes every other key exactly when it shares its label with none. -/
theorem forall_mem_keysWithOther_iff : (∀ k' ∈ t, k' ≠ k → k' ∈ keysWithOther label l t) ↔
    ∀ k', labelOf label t k' = some l → k' = k := by
  constructor
  · intro h k' hk'
    by_contra hne
    have hmem : k' ∈ t := by
      by_contra hnot
      rw [labelOf_eq_none.mpr hnot] at hk'
      cases hk'
    exact notMem_keysWithOther hk' (h k' hmem hne)
  · intro h k' hmem hne
    obtain ⟨l', hl'⟩ : ∃ l', labelOf label t k' = some l' :=
      Option.ne_none_iff_exists'.mp fun hnone => labelOf_eq_none.mp hnone hmem
    refine mem_keysWithOther.mpr ⟨l', hl', ?_⟩
    rintro rfl
    exact hne (h k' hl')

end Others

end RocketGame.LabelledTables
