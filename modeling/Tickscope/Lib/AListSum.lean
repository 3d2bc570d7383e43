import Mathlib.Algebra.Group.Basic
import Mathlib.Algebra.BigOperators.Group.List.Basic
import Mathlib.Data.List.AList
import Mathlib.Tactic.Abel

/-!
# Sums over a map

`total f m` adds `f` over the values of a finite map. An insertion of a new key
adds its value, an erasure subtracts it. `sumKeys m f` adds `f` over the keys; when
a key is written, its term is the only one that changes.

`put m k v` writes a key as a dictionary does that remembers the order of its keys: a key that it
has keeps its place, and a new one comes in front. The keys of such a map are the newest first.
-/

namespace Tickscope.Lib

variable {κ ν M : Type*} [AddCommGroup M]

/-- The sum of `f` over the values of the map. -/
def total (f : ν → M) (m : AList fun _ : κ => ν) : M :=
  (m.entries.map fun entry => f entry.2).sum

@[simp] theorem total_empty (f : ν → M) : total f (∅ : AList fun _ : κ => ν) = 0 := rfl

variable [DecidableEq κ]

theorem total_insert {m : AList fun _ : κ => ν} {k : κ} (absent : m.lookup k = none) (f : ν → M)
    (v : ν) : total f (m.insert k v) = f v + total f m := by
  rw [total, AList.entries_insert_of_notMem (AList.lookup_eq_none.mp absent), List.map_cons,
    List.sum_cons]
  rfl

theorem total_erase {m : AList fun _ : κ => ν} {k : κ} {v : ν} (present : m.lookup k = some v)
    (f : ν → M) : f v + total f (m.erase k) = total f m := by
  have mem : k ∈ m := AList.lookup_isSome.mp (by rw [present]; rfl)
  obtain ⟨w, before, after, -, entries, erased⟩ := List.exists_of_kerase (AList.mem_keys.mp mem)
  have here : (⟨k, w⟩ : Sigma fun _ : κ => ν) ∈ m.entries := by
    rw [entries]
    exact List.mem_append_right _ List.mem_cons_self
  have same : m.lookup k = some w := AList.mem_lookup_iff.mpr here
  rw [present] at same
  cases same
  have entries' : (m.erase k).entries = before ++ after := erased
  rw [total, total, entries, entries', List.map_append, List.map_append, List.sum_append,
    List.sum_append, List.map_cons, List.sum_cons, add_left_comm]

/-- The sum of `f` over the keys of the map. -/
def sumKeys {κ ν M : Type*} [AddCommGroup M] (m : AList fun _ : κ => ν) (f : κ → M) : M :=
  (m.keys.map f).sum

theorem sumKeys_of_perm {κ ν M : Type*} [AddCommGroup M] {m m' : AList fun _ : κ => ν}
    (perm : m.keys.Perm m'.keys) (f : κ → M) : sumKeys m f = sumKeys m' f :=
  (perm.map f).sum_eq

/-- Writing a key replaces its term; a key that was not there had none. -/
theorem sumKeys_insert {m : AList fun _ : κ => ν} {k : κ} {f g : κ → M}
    (others : ∀ j, j ≠ k → g j = f j) (absent : k ∉ m → f k = 0) (v : ν) :
    sumKeys (m.insert k v) g = sumKeys m f - f k + g k := by
  have rest : ((m.keys.erase k).map g).sum = ((m.keys.erase k).map f).sum := by
    refine congrArg List.sum (List.map_congr_left fun j mem => others j fun same => ?_)
    exact m.keys_nodup.not_mem_erase (same ▸ mem)
  have whole : sumKeys m f = f k + ((m.keys.erase k).map f).sum := by
    by_cases mem : k ∈ m.keys
    · exact (List.sum_map_erase f mem).symm
    · have unwritten : k ∉ m := fun here => mem (AList.mem_keys.mp here)
      rw [List.erase_of_not_mem mem, absent unwritten, zero_add]
      rfl
  rw [whole, sumKeys, AList.keys_insert, List.map_cons, List.sum_cons, rest]
  abel

/-! ## Keys in order -/

/-- `m[k] = v`. -/
def put {κ ν : Type*} [DecidableEq κ] (m : AList fun _ : κ => ν) (k : κ) (v : ν) :
    AList fun _ : κ => ν :=
  if k ∈ m then m.replace k v else m.insert k v

theorem dlookup_kreplace {k : κ} (v : ν) : ∀ {entries : List (Sigma fun _ : κ => ν)},
    k ∈ entries.keys → ∀ j, (entries.kreplace k v).dlookup j =
      if j = k then some v else entries.dlookup j
  | [], mem, _ => absurd mem List.not_mem_nil
  | ⟨i, w⟩ :: entries, mem, j => by
      by_cases here : k = i
      · subst here
        have head : (⟨k, w⟩ :: entries : List (Sigma fun _ : κ => ν)).kreplace k v =
            ⟨k, v⟩ :: entries := List.lookmap_cons_some _ _ (if_pos rfl)
        rw [head]
        by_cases same : j = k
        · rw [same, List.dlookup_cons_eq, if_pos rfl]
        · rw [List.dlookup_cons_ne _ _ same, List.dlookup_cons_ne _ _ same, if_neg same]
      · have tail : (⟨i, w⟩ :: entries : List (Sigma fun _ : κ => ν)).kreplace k v =
            ⟨i, w⟩ :: entries.kreplace k v := List.lookmap_cons_none _ _ (if_neg here)
        have later : k ∈ entries.keys := (List.mem_cons.mp mem).resolve_left here
        rw [tail]
        by_cases same : j = i
        · have other : i ≠ k := fun eq => here eq.symm
          rw [same, List.dlookup_cons_eq, List.dlookup_cons_eq, if_neg other]
        · rw [List.dlookup_cons_ne _ _ same, List.dlookup_cons_ne _ _ same,
            dlookup_kreplace v later]

theorem lookup_put (m : AList fun _ : κ => ν) (k : κ) (v : ν) (j : κ) :
    (put m k v).lookup j = if j = k then some v else m.lookup j := by
  rw [put]
  split
  · rename_i mem
    exact dlookup_kreplace v (AList.mem_keys.mp mem) j
  · by_cases same : j = k
    · rw [same, AList.lookup_insert, if_pos rfl]
    · rw [AList.lookup_insert_ne same, if_neg same]

theorem keys_put_perm (m : AList fun _ : κ => ν) (k : κ) (v : ν) :
    (put m k v).keys.Perm (m.insert k v).keys := by
  rw [put]
  split
  · rename_i mem
    rw [AList.keys_replace, AList.keys_insert]
    exact List.perm_cons_erase (AList.mem_keys.mp mem)
  · exact .refl _

theorem sumKeys_put {m : AList fun _ : κ => ν} {k : κ} {f g : κ → M}
    (others : ∀ j, j ≠ k → g j = f j) (absent : k ∉ m → f k = 0) (v : ν) :
    sumKeys (put m k v) g = sumKeys m f - f k + g k :=
  (sumKeys_of_perm (keys_put_perm m k v) g).trans (sumKeys_insert others absent v)

end Tickscope.Lib
