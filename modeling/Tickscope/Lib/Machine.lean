import Mathlib.Data.List.Basic
import Mathlib.Data.List.Induction
import Mathlib.Order.Basic

/-!
# Labelled machines

A `Machine` is a step function on a state type whose nondeterminism sits in its
labels: a label names the thread that moves and carries every value the
environment chooses for that step. An interleaving is a list of labels, so
`Machine.run` replays one interleaving and "for every interleaving" is "for
every list of labels".

* `Machine.Along` says that every step of a run satisfies a condition on the
  label and the state before it; `Machine.Keeps` says that one step under that
  condition keeps a predicate, and `Machine.Keeps.run` lifts this to a run; with
  `Machine.Keeps.along` it serves a condition on every step.
* `Machine.Once` says that a condition has held at some moment of a run, and
  `Machine.run_induction` is the induction that may use it.
* `Machine.trace` collects what an outside observer sees of a run.
* `Machine.Simulates` is a forward simulation with stuttering: one step of the
  concrete machine is matched by a finite run of the abstract one with the same
  observations. `Machine.Simulates.run` is the inclusion of traces.
-/

namespace Tickscope.Lib

/-- A deterministic step function; `none` means that the label is not enabled. -/
structure Machine (σ ℓ : Type*) where
  step : σ → ℓ → Option σ

namespace Machine

variable {σ τ ℓ κ ε : Type*}

/-! ## Runs -/

/-- Replay one interleaving. -/
def run (M : Machine σ ℓ) : σ → List ℓ → Option σ
  | s, [] => some s
  | s, l :: ls => (M.step s l).bind fun s' => M.run s' ls

theorem run_cons (M : Machine σ ℓ) (s : σ) (l : ℓ) (ls : List ℓ) :
    M.run s (l :: ls) = (M.step s l).bind fun s' => M.run s' ls := rfl

theorem run_cons_eq_some {M : Machine σ ℓ} {s t : σ} {l : ℓ} {ls : List ℓ} :
    M.run s (l :: ls) = some t ↔ ∃ s', M.step s l = some s' ∧ M.run s' ls = some t := by
  rw [run_cons, Option.bind_eq_some_iff]

theorem run_append {M : Machine σ ℓ} (s : σ) (ls ks : List ℓ) :
    M.run s (ls ++ ks) = (M.run s ls).bind fun s' => M.run s' ks := by
  induction ls generalizing s with
  | nil => rfl
  | cons l ls ih =>
      rw [List.cons_append, run_cons, run_cons, Option.bind_assoc]
      exact congrArg _ (funext fun s' => ih s')

theorem run_append_eq_some {M : Machine σ ℓ} {s t : σ} {ls ks : List ℓ} :
    M.run s (ls ++ ks) = some t ↔ ∃ s', M.run s ls = some s' ∧ M.run s' ks = some t := by
  rw [run_append, Option.bind_eq_some_iff]

theorem run_concat_eq_some {M : Machine σ ℓ} {s t : σ} {ls : List ℓ} {l : ℓ} :
    M.run s (ls ++ [l]) = some t ↔ ∃ s', M.run s ls = some s' ∧ M.step s' l = some t := by
  refine run_append_eq_some.trans (exists_congr fun s' => and_congr_right fun _ => ?_)
  rw [run_cons]
  exact iff_of_eq (congrArg (· = some t) (Option.bind_fun_some (M.step s' l)))

/-! ## Conditions along a run -/

/-- Every step of the run satisfies `P`, a condition on the label and on the
state before the step. -/
def Along (M : Machine σ ℓ) (P : σ → ℓ → Prop) : σ → List ℓ → Prop
  | _, [] => True
  | s, l :: ls => P s l ∧ ∀ s', M.step s l = some s' → M.Along P s' ls

theorem along_of_forall_mem {M : Machine σ ℓ} {P : σ → ℓ → Prop} {ls : List ℓ}
    (all : ∀ l ∈ ls, ∀ s, P s l) (s : σ) : M.Along P s ls := by
  induction ls generalizing s with
  | nil => exact True.intro
  | cons l ls ih =>
      refine ⟨all l List.mem_cons_self s, fun s' _ => ?_⟩
      exact ih (fun k mem => all k (List.mem_cons_of_mem l mem)) s'

theorem Along.mono {M : Machine σ ℓ} {P Q : σ → ℓ → Prop} (imp : ∀ s l, P s l → Q s l) {s : σ}
    {ls : List ℓ} (along : M.Along P s ls) : M.Along Q s ls := by
  induction ls generalizing s with
  | nil => exact True.intro
  | cons l ls ih => exact ⟨imp s l along.1, fun s' step => ih (along.2 s' step)⟩

theorem along_cons_iff {M : Machine σ ℓ} {s s' : σ} {l : ℓ} (step : M.step s l = some s')
    (P : σ → ℓ → Prop) (ls : List ℓ) : M.Along P s (l :: ls) ↔ P s l ∧ M.Along P s' ls := by
  rw [Along, step]
  exact and_congr_right fun _ => ⟨fun rest => rest s' rfl, fun rest t eq => by cases eq; exact rest⟩

theorem along_append_iff {M : Machine σ ℓ} {s t : σ} {ls : List ℓ} (reached : M.run s ls = some t)
    (P : σ → ℓ → Prop) (ks : List ℓ) : M.Along P s (ls ++ ks) ↔ M.Along P s ls ∧ M.Along P t ks := by
  induction ls generalizing s with
  | nil =>
      cases reached
      exact (and_iff_right True.intro).symm
  | cons l ls ih =>
      obtain ⟨s', step, rest⟩ := run_cons_eq_some.mp reached
      rw [List.cons_append, along_cons_iff step, along_cons_iff step, ih rest, and_assoc]

/-- A condition that can be decided step by step can be decided along a run. -/
instance Along.decidable (M : Machine σ ℓ) (P : σ → ℓ → Prop) [∀ s l, Decidable (P s l)] :
    ∀ (s : σ) (ls : List ℓ), Decidable (M.Along P s ls)
  | _, [] => .isTrue True.intro
  | s, l :: ls =>
      match step : M.step s l with
      | none =>
          decidable_of_iff (P s l) ⟨fun here => ⟨here, fun _ eq => by rw [step] at eq; cases eq⟩,
            And.left⟩
      | some s' =>
          haveI := Along.decidable M P s' ls
          decidable_of_iff _ (along_cons_iff step P ls).symm

/-- A step that satisfies `P` keeps `I`. -/
def Keeps (M : Machine σ ℓ) (P : σ → ℓ → Prop) (I : σ → Prop) : Prop :=
  ∀ ⦃s : σ⦄ ⦃l : ℓ⦄ ⦃s' : σ⦄, I s → P s l → M.step s l = some s' → I s'

/-- **Induction over a run.** What every step keeps holds wherever the run ends. -/
theorem Keeps.run {M : Machine σ ℓ} {P : σ → ℓ → Prop} {I : σ → Prop} (keeps : M.Keeps P I)
    {s t : σ} {ls : List ℓ} (start : I s) (along : M.Along P s ls)
    (reached : M.run s ls = some t) : I t := by
  induction ls generalizing s with
  | nil =>
      cases reached
      exact start
  | cons l ls ih =>
      obtain ⟨s', step, rest⟩ := run_cons_eq_some.mp reached
      exact ih (keeps start along.1 step) (along.2 s' step) rest

/-- What every step keeps may be used for a condition on each step. -/
theorem Keeps.along {M : Machine σ ℓ} {P Q : σ → ℓ → Prop} {I : σ → Prop} (keeps : M.Keeps P I)
    (imp : ∀ s l, I s → P s l → Q s l) {s : σ} {ls : List ℓ} (start : I s)
    (along : M.Along P s ls) : M.Along Q s ls := by
  induction ls generalizing s with
  | nil => exact True.intro
  | cons l ls ih =>
      exact ⟨imp s l start along.1,
        fun s' step => ih (keeps start along.1 step) (along.2 s' step)⟩

theorem Keeps.and {M : Machine σ ℓ} {P : σ → ℓ → Prop} {I J : σ → Prop} (left : M.Keeps P I)
    (right : ∀ ⦃s : σ⦄ ⦃l : ℓ⦄ ⦃s' : σ⦄, I s → J s → P s l → M.step s l = some s' → J s') :
    M.Keeps P fun s => I s ∧ J s :=
  fun _ _ _ both allowed step =>
    ⟨left both.1 allowed step, right both.1 both.2 allowed step⟩

/-- `I` holds of every state of the run. -/
def Always (M : Machine σ ℓ) (I : σ → Prop) : σ → List ℓ → Prop
  | s, [] => I s
  | s, l :: ls => I s ∧ ∀ s', M.step s l = some s' → M.Always I s' ls

theorem Always.head {M : Machine σ ℓ} {I : σ → Prop} {s : σ} {ls : List ℓ}
    (always : M.Always I s ls) : I s := by
  cases ls with
  | nil => exact always
  | cons l ls => exact always.1

theorem Always.last {M : Machine σ ℓ} {I : σ → Prop} {s t : σ} {ls : List ℓ}
    (always : M.Always I s ls) (reached : M.run s ls = some t) : I t := by
  induction ls generalizing s with
  | nil =>
      cases reached
      exact always
  | cons l ls ih =>
      obtain ⟨s', step, rest⟩ := run_cons_eq_some.mp reached
      exact ih (always.2 s' step) rest

/-- What always holds in a run holds wherever the run has got to. -/
theorem always_iff_forall_prefix {M : Machine σ ℓ} {I : σ → Prop} {s : σ} {ls : List ℓ} :
    M.Always I s ls ↔ ∀ ks t, ks <+: ls → M.run s ks = some t → I t := by
  induction ls generalizing s with
  | nil =>
      constructor
      · intro always ks t begun reached
        obtain rfl := List.prefix_nil.mp begun
        cases reached
        exact always
      · exact fun all => all [] s (List.prefix_refl _) rfl
  | cons l ls ih =>
      constructor
      · intro always ks t begun reached
        cases ks with
        | nil =>
            cases reached
            exact always.1
        | cons k ks =>
            obtain ⟨rfl, later⟩ := List.cons_prefix_cons.mp begun
            obtain ⟨s', step, rest⟩ := run_cons_eq_some.mp reached
            exact ih.mp (always.2 s' step) ks t later rest
      · intro all
        refine ⟨all [] s List.nil_prefix rfl, fun s' step => ih.mpr fun ks t begun reached => ?_⟩
        exact all (l :: ks) t (List.cons_prefix_cons.mpr ⟨rfl, begun⟩)
          (run_cons_eq_some.mpr ⟨s', step, reached⟩)

/-- **Exactness along a run.** If steps under `P` keep `J` under `Q`, and `J` implies `I`, which
holds after a step only under `Q`, then `I` always holds exactly if every step satisfies `Q`. -/
theorem always_iff_along {M : Machine σ ℓ} {P Q : σ → ℓ → Prop} {I J : σ → Prop}
    (keeps : M.Keeps (fun s l => P s l ∧ Q s l) J) (imp : ∀ s, J s → I s)
    (needs : ∀ s l s', J s → P s l → M.step s l = some s' → I s' → Q s l) {s t : σ}
    {ls : List ℓ} (start : J s) (along : M.Along P s ls) (reached : M.run s ls = some t) :
    M.Always I s ls ↔ M.Along Q s ls := by
  induction ls generalizing s with
  | nil => exact iff_of_true (imp s start) True.intro
  | cons l ls ih =>
      obtain ⟨s', step, rest⟩ := run_cons_eq_some.mp reached
      constructor
      · intro always
        have later := always.2 s' step
        have here := needs s l s' start along.1 step later.head
        have start' := keeps start ⟨along.1, here⟩ step
        exact (along_cons_iff step Q ls).mpr ⟨here, (ih start' (along.2 s' step) rest).mp later⟩
      · intro allowed
        have start' := keeps start ⟨along.1, allowed.1⟩ step
        refine ⟨imp s start, fun s'' step' => ?_⟩
        cases step.symm.trans step'
        exact (ih start' (along.2 s' step) rest).mpr (allowed.2 s' step)

/-! ## Looking back -/

/-- `P` has held at some moment of the run. -/
def Once (M : Machine σ ℓ) (s : σ) (ls : List ℓ) (P : σ → Prop) : Prop :=
  ∃ ks t, ks <+: ls ∧ M.run s ks = some t ∧ P t

theorem once_of_run {M : Machine σ ℓ} {s t : σ} {ls : List ℓ} (reached : M.run s ls = some t)
    {P : σ → Prop} (here : P t) : M.Once s ls P := ⟨ls, t, List.prefix_refl ls, reached, here⟩

theorem Once.later {M : Machine σ ℓ} {s : σ} {ls : List ℓ} {P : σ → Prop} (once : M.Once s ls P)
    (ks : List ℓ) : M.Once s (ls ++ ks) P := by
  obtain ⟨earlier, t, begun, reached, held⟩ := once
  exact ⟨earlier, t, begun.trans (List.prefix_append ls ks), reached, held⟩

/-- **Induction over a run that looks back.** A step may use the run that has led to it. -/
theorem run_induction {M : Machine σ ℓ} {s : σ} {I : List ℓ → σ → Prop} (start : I [] s)
    (next : ∀ ls t l t', M.run s ls = some t → I ls t → M.step t l = some t' → I (ls ++ [l]) t')
    {ls : List ℓ} {t : σ} (reached : M.run s ls = some t) : I ls t := by
  induction ls using List.reverseRecOn generalizing t with
  | nil =>
      cases reached
      exact start
  | append_singleton ls l ih =>
      obtain ⟨t', before, step⟩ := run_concat_eq_some.mp reached
      exact next ls t' l t before (ih before) step

/-! ## Folds -/

/-- A step function that is always enabled: the loop of a fold. -/
def ofFold (f : σ → ℓ → σ) : Machine σ ℓ := ⟨fun s l => some (f s l)⟩

theorem run_ofFold {f : σ → ℓ → σ} {s : σ} (ls : List ℓ) :
    (ofFold f).run s ls = some (ls.foldl f s) := by
  induction ls generalizing s with
  | nil => rfl
  | cons l ls ih => exact ih

theorem along_ofFold_cons {f : σ → ℓ → σ} {P : σ → ℓ → Prop} {s : σ} {l : ℓ} {ls : List ℓ} :
    (ofFold f).Along P s (l :: ls) ↔ P s l ∧ (ofFold f).Along P (f s l) ls :=
  along_cons_iff rfl P ls

theorem along_ofFold_append {f : σ → ℓ → σ} {P : σ → ℓ → Prop} {s : σ} {ls ks : List ℓ} :
    (ofFold f).Along P s (ls ++ ks) ↔
      (ofFold f).Along P s ls ∧ (ofFold f).Along P (ls.foldl f s) ks := by
  induction ls generalizing s with
  | nil => exact (and_iff_right True.intro).symm
  | cons l ls ih =>
      rw [List.cons_append, along_ofFold_cons, along_ofFold_cons, ih, and_assoc]
      rfl

/-- **Versions.** If every step that changes the state increases `μ`, a run that ends with the same
`μ` ends in the same state. -/
theorem foldl_eq_of_measure {α : Type*} [Preorder α] {f : σ → ℓ → σ} {μ : σ → α} {s : σ}
    {ls : List ℓ} (bumps : ∀ s, ∀ l ∈ ls, f s l = s ∨ μ s < μ (f s l))
    (same : μ (ls.foldl f s) = μ s) : ls.foldl f s = s := by
  have grows : ∀ (ks : List ℓ) (t : σ), (∀ s, ∀ l ∈ ks, f s l = s ∨ μ s < μ (f s l)) →
      μ t ≤ μ (ks.foldl f t) := by
    intro ks
    induction ks with
    | nil => exact fun t _ => le_rfl
    | cons k ks ih =>
        intro t bumps
        have later := ih (f t k) fun s l mem => bumps s l (List.mem_cons_of_mem k mem)
        rcases bumps t k List.mem_cons_self with eq | lt
        · rw [eq] at later
          rw [List.foldl_cons, eq]
          exact later
        · exact lt.le.trans later
  induction ls generalizing s with
  | nil => rfl
  | cons l ls ih =>
      have rest : ∀ s, ∀ k ∈ ls, f s k = s ∨ μ s < μ (f s k) :=
        fun s k mem => bumps s k (List.mem_cons_of_mem l mem)
      rw [List.foldl_cons] at same ⊢
      rcases bumps s l List.mem_cons_self with eq | lt
      · rw [eq] at same ⊢
        exact ih rest same
      · have grown := lt.trans_le (grows ls _ rest)
        rw [same] at grown
        exact (lt_irrefl _ grown).elim

/-! ## Observations and simulations -/

/-- What an observer sees of a run; `obs s l` are the events of the step `l` from `s`. -/
def trace (M : Machine σ ℓ) (obs : σ → ℓ → List ε) : σ → List ℓ → List ε
  | _, [] => []
  | s, l :: ls =>
      match M.step s l with
      | some s' => obs s l ++ M.trace obs s' ls
      | none => []

@[simp] theorem trace_nil (M : Machine σ ℓ) (obs : σ → ℓ → List ε) (s : σ) :
    M.trace obs s [] = [] := rfl

theorem trace_cons {M : Machine σ ℓ} {s s' : σ} {l : ℓ} (step : M.step s l = some s')
    (obs : σ → ℓ → List ε) (ls : List ℓ) :
    M.trace obs s (l :: ls) = obs s l ++ M.trace obs s' ls := by
  rw [trace, step]

theorem trace_append {M : Machine σ ℓ} {s t : σ} {ls : List ℓ} (reached : M.run s ls = some t)
    (obs : σ → ℓ → List ε) (ks : List ℓ) :
    M.trace obs s (ls ++ ks) = M.trace obs s ls ++ M.trace obs t ks := by
  induction ls generalizing s with
  | nil =>
      cases reached
      rfl
  | cons l ls ih =>
      obtain ⟨s', step, rest⟩ := run_cons_eq_some.mp reached
      rw [List.cons_append, trace_cons step, trace_cons step, ih rest, List.append_assoc]

/-- An observer of the labels sees the run itself. -/
theorem trace_labels {M : Machine σ ℓ} {s t : σ} {ls : List ℓ} (reached : M.run s ls = some t) :
    M.trace (fun _ l => [l]) s ls = ls := by
  induction ls generalizing s with
  | nil => rfl
  | cons l ls ih =>
      obtain ⟨s', step, rest⟩ := run_cons_eq_some.mp reached
      rw [trace_cons step, ih rest]
      rfl

/-- What is recorded of a step keeps `I`. -/
def Records (M : Machine σ ℓ) (obs : σ → ℓ → List ε) (I : σ → List ε → Prop) : Prop :=
  ∀ ⦃s : σ⦄ ⦃seen : List ε⦄ ⦃l : ℓ⦄ ⦃s' : σ⦄, I s seen → M.step s l = some s' →
    I s' (seen ++ obs s l)

/-- **Induction over a recorded run.** -/
theorem Records.run {M : Machine σ ℓ} {obs : σ → ℓ → List ε} {I : σ → List ε → Prop}
    (records : M.Records obs I) {s t : σ} {seen : List ε} {ls : List ℓ} (start : I s seen)
    (reached : M.run s ls = some t) : I t (seen ++ M.trace obs s ls) := by
  induction ls generalizing s seen with
  | nil =>
      cases reached
      rw [trace_nil, List.append_nil]
      exact start
  | cons l ls ih =>
      obtain ⟨s', step, rest⟩ := run_cons_eq_some.mp reached
      rw [trace_cons step, ← List.append_assoc]
      exact ih (records start step) rest

/-- A forward simulation with stuttering: from related states, a concrete step under `P` is
matched by an abstract run with the same observations, ending in related states. -/
def Simulates (C : Machine σ ℓ) (obsC : σ → ℓ → List ε) (A : Machine τ κ)
    (obsA : τ → κ → List ε) (P : σ → ℓ → Prop) (R : σ → τ → Prop) : Prop :=
  ∀ ⦃s : σ⦄ ⦃a : τ⦄ ⦃l : ℓ⦄ ⦃s' : σ⦄, R s a → P s l → C.step s l = some s' →
    ∃ (ks : List κ) (a' : τ), A.run a ks = some a' ∧ A.trace obsA a ks = obsC s l ∧ R s' a'

/-- **Inclusion of traces.** Every concrete run has an abstract run with its trace. -/
theorem Simulates.run {C : Machine σ ℓ} {obsC : σ → ℓ → List ε} {A : Machine τ κ}
    {obsA : τ → κ → List ε} {P : σ → ℓ → Prop} {R : σ → τ → Prop}
    (simulates : Simulates C obsC A obsA P R) {s t : σ} {a : τ} {ls : List ℓ}
    (related : R s a) (along : C.Along P s ls) (reached : C.run s ls = some t) :
    ∃ (ks : List κ) (b : τ),
      A.run a ks = some b ∧ A.trace obsA a ks = C.trace obsC s ls ∧ R t b := by
  induction ls generalizing s a with
  | nil =>
      cases reached
      exact ⟨[], a, rfl, rfl, related⟩
  | cons l ls ih =>
      obtain ⟨s', step, rest⟩ := run_cons_eq_some.mp reached
      obtain ⟨ks, a', run, seen, related'⟩ := simulates related along.1 step
      obtain ⟨ks', b, run', seen', final⟩ := ih related' (along.2 s' step) rest
      refine ⟨ks ++ ks', b, run_append_eq_some.mpr ⟨a', run, run'⟩, ?_, final⟩
      rw [trace_append run, seen, seen', trace_cons step]

end Machine

end Tickscope.Lib
