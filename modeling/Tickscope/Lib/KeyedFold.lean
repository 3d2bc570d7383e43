import Mathlib.Data.List.Induction
import Mathlib.Data.List.Perm.Basic
import Mathlib.Logic.Function.Basic

/-!
# Folds by key

A loop over elements of several keys, with a state for each key: an element reads and writes the
state of its own key only. What such a loop leaves at a key, and what it emits, are then those of
the loop over the elements of the key alone, so that the elements of different keys may be
interleaved in any way.
-/

namespace Tickscope.Lib

variable {κ σ α β : Type*} [DecidableEq κ]

section Loop

variable (key : α → κ) (f : σ → α → σ) (o : σ → α → List β)

/-- The step of an element. -/
def stepByKey (s : κ → σ) (a : α) : κ → σ := Function.update s (key a) (f (s (key a)) a)

def foldByKey (s : κ → σ) (as : List α) : κ → σ := as.foldl (stepByKey key f) s

/-- What the elements of one key emit. -/
def emitted : σ → List α → List β
  | _, [] => []
  | s, a :: as => o s a ++ emitted (f s a) as

/-- What all elements emit. -/
def emittedByKey : (κ → σ) → List α → List β
  | _, [] => []
  | s, a :: as => o (s (key a)) a ++ emittedByKey (stepByKey key f s a) as

end Loop

variable {key : α → κ} {f : σ → α → σ} {o : σ → α → List β}

theorem foldByKey_concat (s : κ → σ) (as : List α) (a : α) :
    foldByKey key f s (as ++ [a]) = stepByKey key f (foldByKey key f s as) a :=
  List.foldl_concat ..

theorem emittedByKey_concat (s : κ → σ) (as : List α) (a : α) :
    emittedByKey key f o s (as ++ [a]) =
      emittedByKey key f o s as ++ o (foldByKey key f s as (key a)) a := by
  induction as generalizing s with
  | nil => exact List.append_nil _
  | cons b as ih =>
      rw [List.cons_append, emittedByKey, emittedByKey, ih, List.append_assoc]
      rfl

/-- **One key.** The other elements leave no trace at it. -/
theorem foldByKey_apply (s : κ → σ) (as : List α) (k : κ) :
    foldByKey key f s as k = (as.filter fun a => key a = k).foldl f (s k) := by
  induction as using List.reverseRecOn with
  | nil => rfl
  | append_singleton as a ih =>
      rw [foldByKey_concat, List.filter_append, List.foldl_append, ← ih, stepByKey]
      by_cases own : key a = k
      · rw [own, Function.update_self]
        simp [own]
      · rw [Function.update_of_ne (Ne.symm own)]
        simp [own]

/-- **What is emitted.** It is that of the single keys in another order. -/
theorem emittedByKey_perm {keys : List κ} (nodup : keys.Nodup) (s : κ → σ) {as : List α}
    (all : ∀ a ∈ as, key a ∈ keys) :
    (emittedByKey key f o s as).Perm
      (keys.flatMap fun k => emitted f o (s k) (as.filter fun a => key a = k)) := by
  induction as generalizing s with
  | nil =>
      have nothing : ∀ ks : List κ, (ks.flatMap fun k =>
          emitted f o (s k) (([] : List α).filter fun a => key a = k)) = [] := by
        intro ks
        exact List.flatMap_eq_nil_iff.mpr fun _ _ => rfl
      rw [nothing]
      exact List.Perm.refl _
  | cons a as ih =>
      rw [List.forall_mem_cons] at all
      obtain ⟨before, after, rfl⟩ := List.append_of_mem all.1
      obtain ⟨-, nodup', apart⟩ := List.nodup_append.mp nodup
      have absent : key a ∉ before := fun mem => apart _ mem _ List.mem_cons_self rfl
      have absent' : key a ∉ after := (List.nodup_cons.mp nodup').1
      have others : ∀ ks : List κ, key a ∉ ks →
          (ks.flatMap fun k => emitted f o (s k) ((a :: as).filter fun b => key b = k)) =
            ks.flatMap fun k =>
              emitted f o (stepByKey key f s a k) (as.filter fun b => key b = k) := by
        intro ks notIn
        refine List.flatMap_congr fun k mem => ?_
        have ne : key a ≠ k := fun same => notIn (same ▸ mem)
        rw [List.filter_cons_of_neg (by simpa using ne), stepByKey, Function.update_of_ne ne.symm]
      have own : emitted f o (s (key a)) ((a :: as).filter fun b => key b = key a) =
          o (s (key a)) a ++
            emitted f o (stepByKey key f s a (key a)) (as.filter fun b => key b = key a) := by
        rw [List.filter_cons_of_pos (by simp), emitted, stepByKey, Function.update_self]
      rw [emittedByKey, List.flatMap_append, List.flatMap_cons, others before absent,
        others after absent', own]
      refine ((ih _ all.2).append_left _).trans ?_
      rw [List.flatMap_append, List.flatMap_cons, List.append_assoc (o (s (key a)) a)]
      exact List.perm_append_comm_assoc ..

end Tickscope.Lib
