import Mathlib.Algebra.BigOperators.Group.List.Basic
import Mathlib.Algebra.Group.Basic
import Mathlib.Data.List.Basic
import Mathlib.Data.List.Chain
import Mathlib.Data.List.Forall2
import Mathlib.Data.List.Induction

/-!
# Lists

When a list of lists, put together, is the list that was expected; the groups of a list, one
after the other; what two selections from one list say of each element; the first element of a
list that breaks a condition on what stands before it; differences that add up.
-/

namespace Tickscope.Lib

variable {α β : Type*} {f : α → List β} {s : α → β}

/-- With `owed` still to come, the elements from here on do not make up for it. -/
theorem owed_of_flatMap_eq {as : List α} (owed : List β)
    (once : ∀ a ∈ as, f a = [s a] ∨ s a ∉ f a) (eq : as.flatMap f = owed ++ as.map s) :
    owed = [] ∧ ∀ a ∈ as, f a = [s a] := by
  induction as generalizing owed with
  | nil => exact ⟨(List.append_nil owed).symm.trans eq.symm, nofun⟩
  | cons a as ih =>
      rw [List.forall_mem_cons] at once ⊢
      rw [List.flatMap_cons, List.map_cons] at eq
      -- whatever is owed after `a` is owed to the end, so nothing may be
      have stuck : ∀ rest : List β, as.flatMap f = rest ++ s a :: as.map s → False := by
        intro rest eq
        rw [← List.singleton_append, ← List.append_assoc] at eq
        exact List.append_ne_nil_of_right_ne_nil rest (List.cons_ne_nil _ _) (ih _ once.2 eq).1
      rcases once.1 with here | absent
      · rw [here, List.singleton_append] at eq
        cases owed with
        | nil => exact ⟨rfl, here, (ih [] once.2 (List.cons.inj eq).2).2⟩
        | cons b owed => exact (stuck owed (List.cons.inj eq).2).elim
      · rcases List.append_eq_append_iff.mp eq with ⟨between, -, rest⟩ | ⟨between, found, rest⟩
        · exact (stuck _ rest).elim
        · cases between with
          | nil => exact (stuck [] rest.symm).elim
          | cons b between =>
              refine absurd ?_ absent
              rw [found, (List.cons.inj rest).1]
              exact List.mem_append_right _ List.mem_cons_self

/-- If no `f a` but a right one has `s a` in it, the whole is right only if every part is. -/
theorem flatMap_eq_map_iff {as : List α} (once : ∀ a ∈ as, f a = [s a] ∨ s a ∉ f a) :
    as.flatMap f = as.map s ↔ ∀ a ∈ as, f a = [s a] := by
  constructor
  · exact fun eq => (owed_of_flatMap_eq [] once eq).2
  · intro all
    induction as with
    | nil => rfl
    | cons a as ih =>
        rw [List.forall_mem_cons] at once all
        rw [List.flatMap_cons, all.1, ih once.2 all.2]
        rfl

theorem flatMap_filter_perm_filter {κ : Type*} [DecidableEq κ] (key : α → κ) {keys : List κ}
    (nodup : keys.Nodup) (as : List α) :
    (keys.flatMap fun k => as.filter fun a => key a = k).Perm
      (as.filter fun a => key a ∈ keys) := by
  induction keys with
  | nil =>
      rw [List.filter_eq_nil_iff.mpr fun a _ mem => List.not_mem_nil (of_decide_eq_true mem)]
      rfl
  | cons k keys ih =>
      rcases List.nodup_cons.mp nodup with ⟨fresh, nodup⟩
      rw [List.flatMap_cons]
      refine ((ih nodup).append_left _).trans ?_
      -- the rows of the first key, and the others
      have split := List.filter_append_perm (fun a => decide (key a = k))
        (as.filter fun a => key a ∈ k :: keys)
      rw [List.filter_filter, List.filter_filter] at split
      convert split using 2
      · refine List.filter_congr fun a _ => ?_
        by_cases same : key a = k <;> simp [same]
      · refine List.filter_congr fun a _ => ?_
        by_cases same : key a = k <;> simp [same, fresh]

/-- With every key once, the groups together are the list in another order. -/
theorem flatMap_filter_perm {κ : Type*} [DecidableEq κ] (key : α → κ) {keys : List κ}
    (nodup : keys.Nodup) {as : List α} (all : ∀ a ∈ as, key a ∈ keys) :
    (keys.flatMap fun k => as.filter fun a => key a = k).Perm as := by
  have perm := flatMap_filter_perm_filter key nodup as
  rwa [List.filter_eq_self.mpr fun a mem => decide_eq_true (all a mem)] at perm

/-- The one batch that has `a`. -/
theorem find?_mem_of_nodup [BEq α] [LawfulBEq α] {batches : List (List α)}
    (nodup : batches.flatten.Nodup) {batch : List α} (mem : batch ∈ batches) {a : α}
    (here : a ∈ batch) :
    batches.find? (fun batch => a ∈ batch) = some batch := by
  induction batches with
  | nil => exact (List.not_mem_nil mem).elim
  | cons first batches ih =>
      rw [List.flatten_cons, List.nodup_append] at nodup
      rw [List.find?_cons]
      rcases List.mem_cons.mp mem with rfl | mem
      · rw [decide_eq_true here]
      · have other : a ∉ first := fun also =>
          nodup.2.2 a also a (List.mem_flatten_of_mem mem here) rfl
        rw [decide_eq_false other]
        exact ih nodup.2.1 mem

theorem map_some_filterMap {o : α → Option β} {as : List α} (all : ∀ a ∈ as, (o a).isSome) :
    (as.filterMap o).map some = as.map o := by
  induction as with
  | nil => rfl
  | cons a as ih =>
      rw [List.forall_mem_cons] at all
      obtain ⟨b, found⟩ := Option.isSome_iff_exists.mp all.1
      rw [List.filterMap_cons_some found, List.map_cons, List.map_cons, ih all.2, found]

/-- Two selections that keep the key of an element, and each of which takes all elements of a key
or none, give the same list only if they agree on every element. -/
theorem filterMap_eq_filterMap_iff {κ : Type*} [DecidableEq κ] (key : α → κ) (key' : β → κ)
    {o o' : α → Option β} (keep : ∀ a b, o a = some b → key' b = key a)
    (keep' : ∀ a b, o' a = some b → key' b = key a)
    (uniform : ∀ a a', key a = key a' → (o a).isSome = (o a').isSome)
    (uniform' : ∀ a a', key a = key a' → (o' a).isSome = (o' a').isSome) {as : List α} :
    as.filterMap o = as.filterMap o' ↔ ∀ a ∈ as, o a = o' a := by
  constructor
  · intro eq a mem
    -- look only at the elements with the key of `a`
    have group : ∀ {q : α → Option β}, (∀ a b, q a = some b → key' b = key a) →
        (as.filterMap q).filter (fun b => key' b = key a) =
          (as.filter fun a' => key a' = key a).filterMap q := by
      intro q keepQ
      rw [List.filter_filterMap, List.filterMap_filter]
      refine List.filterMap_congr fun a' _ => ?_
      cases found : q a' with
      | none => rw [ite_self]; rfl
      | some b => rw [Option.filter_some, keepQ a' b found]
    have same := congrArg (List.filter fun b => key' b = key a) eq
    rw [group keep, group keep'] at same
    have memGroup : a ∈ as.filter fun a' => key a' = key a :=
      List.mem_filter.mpr ⟨mem, decide_eq_true rfl⟩
    have keyOf : ∀ a' ∈ as.filter fun a' => key a' = key a, key a' = key a := fun a' mem' =>
      of_decide_eq_true (List.mem_filter.mp mem').2
    generalize as.filter (fun a' => key a' = key a) = alike at same memGroup keyOf
    have none_iff : ∀ {q : α → Option β}, (∀ a a', key a = key a' → (q a).isSome = (q a').isSome) →
        (q a = none ↔ alike.filterMap q = []) := by
      intro q uniformQ
      rw [List.filterMap_eq_nil_iff]
      refine ⟨fun lost a' mem' => ?_, fun nothing => nothing a memGroup⟩
      rw [← Option.not_isSome_iff_eq_none, uniformQ a' a (keyOf a' mem'), lost]
      exact Bool.false_ne_true
    by_cases lost : o a = none
    · rw [lost, (none_iff uniform').mpr (same ▸ (none_iff uniform).mp lost)]
    · have kept' : o' a ≠ none := fun lost' =>
        lost ((none_iff uniform).mpr (same ▸ (none_iff uniform').mp lost'))
      have all : ∀ a' ∈ alike, (o a').isSome := fun a' mem' => by
        rw [uniform a' a (keyOf a' mem')]
        exact Option.isSome_iff_ne_none.mpr lost
      have all' : ∀ a' ∈ alike, (o' a').isSome := fun a' mem' => by
        rw [uniform' a' a (keyOf a' mem')]
        exact Option.isSome_iff_ne_none.mpr kept'
      have maps : alike.map o = alike.map o' := by
        rw [← map_some_filterMap all, same, map_some_filterMap all']
      exact List.map_inj_left.mp maps a memGroup
  · exact fun all => List.filterMap_congr all

/-- Two lists without repetitions that select the same things from the same keys. -/
theorem filterMap_perm_of_nodup {as as' : List α} (nodup : as.Nodup) (nodup' : as'.Nodup)
    {o o' : α → Option β} (same : ∀ a b, a ∈ as ∧ o a = some b ↔ a ∈ as' ∧ o' a = some b) :
    (as.filterMap o).Perm (as'.filterMap o') := by
  have chosen : ∀ (l : List α) (q : α → Option β),
      l.filterMap q = (l.filter fun a => (q a).isSome).filterMap q := by
    intro l q
    rw [List.filterMap_filter]
    refine List.filterMap_congr fun a _ => ?_
    cases q a <;> rfl
  have keys : (as.filter fun a => (o a).isSome).Perm (as'.filter fun a => (o' a).isSome) := by
    refine (List.perm_ext_iff_of_nodup (nodup.filter _) (nodup'.filter _)).mpr fun a => ?_
    rw [List.mem_filter, List.mem_filter, Option.isSome_iff_exists, Option.isSome_iff_exists,
      ← exists_and_left, ← exists_and_left]
    exact exists_congr fun b => same a b
  rw [chosen as, chosen as']
  refine (keys.filterMap o).trans (.of_eq (List.filterMap_congr fun a mem => ?_))
  obtain ⟨b, found⟩ := Option.isSome_iff_exists.mp (List.mem_filter.mp mem).2
  rw [found, ((same a b).mpr ⟨(List.mem_filter.mp mem).1, found⟩).2]

/-! ## Elements of two kinds in order -/

/-- A weaker condition is met as often only if it is met nowhere else. -/
theorem countP_eq_countP_iff {p q : α → Bool} {as : List α}
    (imp : ∀ a ∈ as, p a = true → q a = true) :
    as.countP p = as.countP q ↔ ∀ a ∈ as, q a = true → p a = true := by
  induction as with
  | nil => exact iff_of_true rfl nofun
  | cons a as ih =>
      rw [List.forall_mem_cons] at imp ⊢
      have le : as.countP p ≤ as.countP q := List.countP_mono_left imp.2
      rw [← ih imp.2, List.countP_cons, List.countP_cons]
      cases here : p a with
      | true =>
          rw [imp.1 here]
          simp
      | false =>
          cases there : q a with
          | true =>
              rw [if_pos rfl, if_neg Bool.false_ne_true]
              exact iff_of_false (by omega) fun both => nomatch both.1 rfl
          | false => simp

/-- A relation between the elements of two kinds holds pairwise if it holds of each element of the
first kind, with those of the second before it and after it. -/
theorem pairwise_ne_iff (p : α → Bool) {R : α → α → Prop} (as : List α) :
    as.Pairwise (fun a b => p a ≠ p b → R a b) ↔
      ∀ before a after, as = before ++ a :: after → p a = true →
        (∀ b ∈ before, p b = false → R b a) ∧ ∀ b ∈ after, p b = false → R a b := by
  constructor
  · rintro pairwise before a after rfl kind
    rcases List.pairwise_append.mp pairwise with ⟨-, right, across⟩
    refine ⟨fun b mem other => across b mem a List.mem_cons_self ?_,
      fun b mem other => (List.pairwise_cons.mp right).1 b mem ?_⟩
    · rw [kind, other]
      exact Bool.false_ne_true
    · rw [kind, other]
      exact Bool.false_ne_true.symm
  · induction as with
    | nil => exact fun _ => .nil
    | cons a as ih =>
        intro each
        refine .cons (fun b mem differ => ?_) (ih fun before a' after eq => ?_)
        · cases kind : p a with
          | true =>
              refine (each [] a as rfl kind).2 b mem ?_
              rw [kind] at differ
              exact Bool.eq_false_iff.mpr (Ne.symm differ)
          | false =>
              rw [kind] at differ
              obtain ⟨before, after, rfl⟩ := List.append_of_mem mem
              have other : p b = true := (Bool.not_eq_false _).mp (Ne.symm differ)
              exact (each (a :: before) b after rfl other).1 a List.mem_cons_self kind
        · intro kind
          have both := each (a :: before) a' after (congrArg (a :: ·) eq) kind
          exact ⟨fun b mem => both.1 b (List.mem_cons_of_mem a mem), both.2⟩

/-- In a list that is in order, every element is related to the last one. -/
theorem exists_getLast?_of_pairwise {r : α → α → Prop} (refl : ∀ a, r a a) {as : List α} {a : α}
    (pairwise : as.Pairwise r) (mem : a ∈ as) : ∃ c ∈ as.getLast?, r a c := by
  obtain ⟨before, c, rfl⟩ := (List.eq_nil_or_concat' as).resolve_left (List.ne_nil_of_mem mem)
  refine ⟨c, List.getLast?_concat, ?_⟩
  rcases List.mem_append.mp mem with mem | mem
  · exact (List.pairwise_append.mp pairwise).2.2 a mem c (List.mem_singleton_self c)
  · rw [List.mem_singleton.mp mem]
    exact refl c

theorem exists_head?_of_pairwise {r : α → α → Prop} (refl : ∀ a, r a a) {as : List α} {a : α}
    (pairwise : as.Pairwise r) (mem : a ∈ as) : ∃ c ∈ as.head?, r c a := by
  cases as with
  | nil => cases mem
  | cons c as =>
      refine ⟨c, rfl, ?_⟩
      rcases List.mem_cons.mp mem with rfl | mem
      · exact refl a
      · exact (List.pairwise_cons.mp pairwise).1 a mem

/-! ## Maps that may fail -/

theorem mapM_eq_some_iff {g : α → Option β} {as : List α} {bs : List β} :
    as.mapM g = some bs ↔ List.Forall₂ (fun a b => g a = some b) as bs := by
  induction as generalizing bs with
  | nil =>
      rw [List.mapM_nil, List.forall₂_nil_left_iff]
      exact Option.some_inj.trans eq_comm
  | cons a as ih =>
      rw [List.mapM_cons, List.forall₂_cons_left_iff]
      refine Option.bind_eq_some_iff.trans (exists_congr fun b => ?_)
      constructor
      · rintro ⟨here, rest⟩
        rcases Option.bind_eq_some_iff.mp rest with ⟨bs', all, eq⟩
        cases eq
        exact ⟨bs', here, ih.mp all, rfl⟩
      · rintro ⟨bs', here, all, rfl⟩
        exact ⟨here, Option.bind_eq_some_iff.mpr ⟨bs', ih.mpr all, rfl⟩⟩

/-- A map that does not fail on these. -/
theorem mapM_eq_some_map {g : α → Option β} {f : α → β} {as : List α}
    (each : ∀ a ∈ as, g a = some (f a)) : as.mapM g = some (as.map f) := by
  rw [mapM_eq_some_iff, List.forall₂_map_right_iff, List.forall₂_same]
  exact each

theorem length_of_mapM {g : α → Option β} {as : List α} {bs : List β}
    (all : as.mapM g = some bs) : bs.length = as.length :=
  (mapM_eq_some_iff.mp all).length_eq.symm

/-- What the elements of a part give is a part of what all of them give. -/
theorem sublist_of_mapM {g : α → Option β} {as as' : List α} (sub : as.Sublist as')
    {bs bs' : List β} (part : as.mapM g = some bs) (all : as'.mapM g = some bs') :
    bs.Sublist bs' := by
  rw [mapM_eq_some_iff] at part all
  induction sub generalizing bs bs' with
  | slnil =>
      cases part
      exact List.nil_sublist _
  | cons a _ ih =>
      cases all with
      | cons _ all => exact (ih part all).cons _
  | cons_cons a _ ih =>
      cases part with
      | cons here part =>
          cases all with
          | cons here' all =>
              cases here.symm.trans here'
              exact (ih part all).cons_cons _

/-! ## Prefixes -/

theorem prefix_append_cases {xs as bs : List α} (initial : xs <+: as ++ bs) :
    xs <+: as ∨ ∃ later, later <+: bs ∧ xs = as ++ later := by
  obtain ⟨rest, eq⟩ := initial
  rcases List.append_eq_append_iff.mp eq with ⟨between, first, -⟩ | ⟨between, first, second⟩
  · exact .inl ⟨between, first.symm⟩
  · exact .inr ⟨between, ⟨rest, second.symm⟩, first⟩

/-- Every element of a list meets a condition on those before it, or there is a first that does
not. -/
theorem forall_or_first (P : List α → α → Prop) (as : List α) :
    (∀ before a, before ++ [a] <+: as → P before a) ∨
      ∃ before a after, as = before ++ a :: after ∧
        (∀ earlier b, earlier ++ [b] <+: before → P earlier b) ∧ ¬P before a := by
  induction as using List.reverseRecOn with
  | nil => exact .inl fun before a initial => absurd (List.prefix_nil.mp initial) (by simp)
  | append_singleton as a ih =>
      rcases ih with all | ⟨before, b, after, rfl, all, fails⟩
      · by_cases here : P as a
        · refine .inl fun before b initial => ?_
          rcases List.prefix_concat_iff.mp initial with whole | initial
          · obtain ⟨rfl, last⟩ := List.append_inj' whole rfl
            cases last
            exact here
          · exact all before b initial
        · exact .inr ⟨as, a, [], rfl, all, here⟩
      · exact .inr ⟨before, b, after ++ [a], by simp, all, fails⟩

/-! ## Differences -/

/-- Differences from one to the next add up. -/
theorem sum_of_differences {G : Type*} [AddCommGroup G] {value delta : α → G} {items : List α}
    (first : ∀ item ∈ items.head?, delta item = value item)
    (chain : items.IsChain fun item next => delta next = value next - value item) :
    ∀ item ∈ items.getLast?, (items.map delta).sum = value item := by
  induction items using List.reverseRecOn with
  | nil => exact nofun
  | append_singleton items item ih =>
      intro last isLast
      rw [List.getLast?_concat] at isLast
      cases isLast
      rw [List.map_append, List.sum_append, List.map_singleton, List.sum_singleton]
      rcases List.eq_nil_or_concat items with rfl | ⟨before, prev, rfl⟩
      · exact (zero_add _).trans (first item rfl)
      · rw [List.concat_eq_append] at *
        have before_it := List.isChain_append.mp chain
        have step := before_it.2.2 prev (by rw [List.getLast?_concat]; rfl) item rfl
        have earlier := ih (fun item mem => first item (by
          rw [List.head?_append, Option.mem_def.mp mem]; rfl)) before_it.1 prev
          (by rw [List.getLast?_concat]; rfl)
        rw [earlier, step, add_sub_cancel]

end Tickscope.Lib
