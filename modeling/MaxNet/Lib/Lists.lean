import Mathlib.Algebra.Order.BigOperators.Group.List
import Mathlib.Algebra.Order.Ring.Nat
import Mathlib.Data.List.Permutation
import Mathlib.Data.List.Range

namespace Lists

theorem forall_mem_modify {α : Type*} {P : α → Prop} {f : α → α} {l : List α} {i : Nat} (all : ∀ a ∈ l, P a)
    (next : ∀ a ∈ l[i]?, P (f a)) : ∀ a ∈ l.modify i f, P a := by
  intro a member
  obtain ⟨j, found⟩ := List.mem_iff_getElem?.mp member
  rw [List.getElem?_modify] at found
  obtain ⟨b, old, same⟩ := Option.map_eq_some_iff.mp found
  by_cases here : i = j
  · subst here
    rw [if_pos rfl] at same
    exact same ▸ next b old
  · rw [if_neg here] at same
    exact same ▸ all b (List.mem_of_getElem? old)

theorem forall_mem_set {α : Type*} {P : α → Prop} {l : List α} {i : Nat} {b : α} (all : ∀ a ∈ l, P a) (next : P b) :
    ∀ a ∈ l.set i b, P a := by
  intro a member
  rcases List.mem_or_eq_of_mem_set member with old | rfl
  · exact all a old
  · exact next

theorem map_modify_eq {α β : Type*} {f : α → α} {g : α → β} {l : List α} {i : Nat} (same : ∀ a ∈ l[i]?, g (f a) = g a) :
    (l.modify i f).map g = l.map g := by
  ext1 j
  rw [List.getElem?_map, List.getElem?_map, List.getElem?_modify]
  cases found : l[j]? with
  | none => rfl
  | some a =>
    by_cases here : i = j
    · subst here
      simpa using same a found
    · simp [here]

theorem map_set_eq {α β : Type*} {g : α → β} {l : List α} {i : Nat} {a b : α} (found : l[i]? = some a)
    (same : g b = g a) : (l.set i b).map g = l.map g := by
  have there : (l.map g)[i]? = some (g b) := by rw [List.getElem?_map, found, Option.map_some, same]
  rw [List.map_set]
  ext1 j
  rw [List.getElem?_set]
  split
  · rename_i here
    subst here
    split
    · exact there.symm
    · rename_i outside
      rw [List.getElem?_eq_none (Nat.not_lt.mp outside)]
  · rfl

/-- The last element grows. -/
theorem flatMap_modify_last {α β : Type*} {f : α → α} {g : α → List β} {l : List α} {i : Nat} {more : List β}
    (last : i + 1 = l.length) (grows : ∀ a, g (f a) = g a ++ more) : (l.modify i f).flatMap g = l.flatMap g ++ more := by
  induction l generalizing i with
  | nil => cases last
  | cons a l ih =>
    cases i with
    | zero =>
      obtain rfl := List.eq_nil_of_length_eq_zero (Nat.succ.inj last).symm
      simp [grows]
    | succ i =>
      have rest := ih (Nat.succ.inj last)
      rw [List.modify_succ_cons, List.flatMap_cons, List.flatMap_cons, rest, List.append_assoc]

theorem sum_map_set {α : Type*} {f : α → Nat} {l : List α} {i : Nat} {a b : α} (found : l[i]? = some a) :
    ((l.set i b).map f).sum + f a = (l.map f).sum + f b := by
  induction l generalizing i with
  | nil => cases found
  | cons c l ih =>
    cases i with
    | zero =>
      obtain rfl := Option.some.inj found
      simp only [List.set_cons_zero, List.map_cons, List.sum_cons]
      omega
    | succ i =>
      have rest := ih (i := i) found
      simp only [List.set_cons_succ, List.map_cons, List.sum_cons]
      omega

theorem sum_map_modify_le {α : Type*} {f : α → Nat} {g : α → α} {n : Nat} (l : List α) (i : Nat)
    (each : ∀ a, f (g a) ≤ f a + n) : ((l.modify i g).map f).sum ≤ (l.map f).sum + n := by
  induction l generalizing i with
  | nil => simp
  | cons a l ih =>
    cases i with
    | zero =>
      have first := each a
      simp only [List.modify_zero_cons, List.map_cons, List.sum_cons]
      omega
    | succ i =>
      have rest := ih i
      simp only [List.modify_succ_cons, List.map_cons, List.sum_cons]
      omega

theorem flatMap_eq_iff {α β : Type*} {f g : α → List β} (lengths : ∀ a, (f a).length = (g a).length)
    (l : List α) : l.flatMap f = l.flatMap g ↔ ∀ a ∈ l, f a = g a := by
  constructor
  · intro same
    induction l with
    | nil => simp
    | cons a l ih =>
      rw [List.flatMap_cons, List.flatMap_cons] at same
      obtain ⟨head, tail⟩ := List.append_inj same (lengths a)
      intro b member
      rcases List.mem_cons.mp member with rfl | later
      · exact head
      · exact ih tail b later
  · intro same
    exact List.flatMap_congr same

/-- A separator behind every item is one between the items, and one more. -/
theorem flatMap_append_eq {α : Type*} (separator first : List α) (rest : List (List α)) :
    (first :: rest).flatMap (fun item => item ++ separator) =
      separator.intercalate (first :: rest) ++ separator := by
  induction rest generalizing first with
  | nil => simp [List.intercalate_singleton]
  | cons next rest ih =>
    rw [List.flatMap_cons, ih next, List.intercalate_cons_cons]
    simp

theorem append_of_mem_last {α : Type*} {a : α} {l : List α} (member : a ∈ l) :
    ∃ before after, l = before ++ a :: after ∧ a ∉ after := by
  obtain ⟨after, before, split, fresh⟩ := List.eq_append_cons_of_mem (List.mem_reverse.mpr member)
  refine ⟨before.reverse, after.reverse, ?_, by simpa using fresh⟩
  rw [← List.reverse_reverse l, split]
  simp

theorem map_eq_self_iff {α : Type*} {f : α → α} {l : List α} : l.map f = l ↔ ∀ a ∈ l, f a = a := by
  simpa using List.map_inj_left (f := f) (g := id) (l := l)

/-- A filter that is lost in the image has kept everything. -/
theorem map_filter_eq_map_iff {α β : Type*} {p : α → Bool} {l : List α} (f : α → β) :
    (l.filter p).map f = l.map f ↔ ∀ a ∈ l, p a = true := by
  rw [← List.filter_eq_self]
  constructor
  · intro same
    have length := congrArg List.length same
    rw [List.length_map, List.length_map] at length
    exact List.filter_sublist.eq_of_length length
  · intro all
    rw [all]

theorem filter_of_perm_pair {α : Type*} {p : α → Bool} {l rest : List α} {a b : α} (order : l.Perm (a :: b :: rest))
    (first : p a = true) (second : p b = true) (skip : ∀ c ∈ rest, ¬ p c = true) :
    l.filter p = [a, b] ∨ l.filter p = [b, a] := by
  have kept : (a :: b :: rest).filter p = [a, b] := by
    rw [List.filter_cons_of_pos first, List.filter_cons_of_pos second, List.filter_eq_nil_iff.mpr skip]
  apply List.perm_pair.mp
  rw [← kept]
  exact order.filter p

theorem sublist_pair_iff {α : Type*} {p : α → Bool} {l : List α} {a b : α} (differ : a ≠ b) (first : p a = true)
    (second : p b = true) (pair : l.filter p = [a, b] ∨ l.filter p = [b, a]) :
    [a, b].Sublist l ↔ l.filter p = [a, b] := by
  constructor
  · intro within
    have kept := within.filter p
    rw [List.filter_cons_of_pos first, List.filter_cons_of_pos second, List.filter_nil] at kept
    rcases pair with inOrder | reversed
    · exact inOrder
    · rw [reversed] at kept
      have same := kept.eq_of_length rfl
      exact absurd (List.cons.inj same).1 differ
  · intro inOrder
    rw [← inOrder]
    exact List.filter_sublist

/-- What can be seen of the state of a loop is the state of a loop of its own. -/
theorem map_foldlM {ε σ τ α : Type*} {f : σ → α → Except ε σ} {g : τ → α → Except ε τ} (view : σ → τ)
    (step : ∀ s a, (f s a).map view = g (view s) a) (l : List α) (s : σ) :
    (l.foldlM f s).map view = l.foldlM g (view s) := by
  induction l generalizing s with
  | nil => rfl
  | cons a l ih =>
    rw [List.foldlM_cons, List.foldlM_cons, ← step s a]
    cases f s a with
    | error x => rfl
    | ok t => exact ih t

/-- What turns of one kind overwrite, and no others touch, is what the last of them has written. -/
theorem foldl_overwrites {σ α β : Type*} {f : σ → α → σ} {view : σ → β} {value : α → β} {p : α → Prop}
    [DecidablePred p] (step : ∀ s a, view (f s a) = if p a then value a else view s) (l : List α) (s : σ) :
    view (l.foldl f s) = ((l.filter p).getLast?.map value).getD (view s) := by
  induction l generalizing s with
  | nil => rfl
  | cons a l ih =>
    rw [List.foldl_cons, ih (f s a), step s a]
    by_cases kind : p a
    · have kept : (a :: l).filter p = a :: l.filter p := by simp [kind]
      rw [if_pos kind, kept, List.getLast?_cons]
      cases (l.filter p).getLast? with
      | none => rfl
      | some b => rfl
    · have skipped : (a :: l).filter p = l.filter p := by simp [kind]
      rw [if_neg kind, skipped]

theorem foldl_overwrites_unset {σ α β : Type*} {f : σ → α → σ} {view : σ → Option β} {value : α → Option β}
    {p : α → Prop} [DecidablePred p] (step : ∀ s a, view (f s a) = if p a then value a else view s) (l : List α) {s : σ}
    (unset : view s = none) : view (l.foldl f s) = (l.filter p).getLast?.bind value := by
  rw [foldl_overwrites step, unset]
  cases (l.filter p).getLast? with
  | none => rfl
  | some a => rfl

/-- The last element speaks for the last one that satisfies `p` exactly if it is the one, where there is one. -/
theorem getLast?_masked_iff {α β : Type*} {p : α → Prop} [DecidablePred p] {f : α → Option β} {l : List α}
    (value : ∀ a ∈ l, p a → f a ≠ none) :
    (l.getLast?.bind fun a => if p a then f a else none) = (l.filter p).getLast?.bind f ↔
      ((∃ a ∈ l, p a) → ∃ a, l.getLast? = some a ∧ p a) := by
  rcases l.eq_nil_or_concat with rfl | ⟨before, last, rfl⟩
  · simp
  · rw [List.concat_eq_append] at value ⊢
    rw [List.getLast?_concat, List.filter_append]
    by_cases kind : p last
    · simp [kind]
    · have alone : [last].filter p = [] := by simp [kind]
      rw [alone, List.append_nil]
      cases found : (before.filter p).getLast? with
      | none =>
        have nothing := List.filter_eq_nil_iff.mp (List.getLast?_eq_none_iff.mp found)
        simpa [kind] using nothing
      | some a =>
        obtain ⟨member, good⟩ := List.mem_filter.mp (List.mem_of_getLast? found)
        have inside : a ∈ before ++ [last] := List.mem_append_left _ member
        constructor
        · intro same
          have nothing : f a = none := by simpa [kind] using same.symm
          exact absurd nothing (value a inside (of_decide_eq_true good))
        · intro latest
          obtain ⟨b, isLast, good'⟩ := latest ⟨a, inside, of_decide_eq_true good⟩
          obtain rfl := Option.some.inj isLast
          exact absurd good' kind

/-! ### Numberings of a list by its own positions -/

section Numbering

variable {α : Type*} {l : List α} {f g : α → Nat}

theorem perm_range_of_nodup (distinct : (l.map f).Nodup) (bound : ∀ a ∈ l, f a < l.length) :
    (l.map f).Perm (List.range l.length) := by
  have subset : l.map f ⊆ List.range l.length := by
    intro n member
    obtain ⟨a, inside, rfl⟩ := List.mem_map.mp member
    exact List.mem_range.mpr (bound a inside)
  apply (List.subperm_of_subset distinct subset).perm_of_length_le
  rw [List.length_range, List.length_map]

/-- Two numberings are equal once one of them is below the other. -/
theorem eq_of_nodup_of_le (distinct : (l.map f).Nodup) (distinct' : (l.map g).Nodup)
    (bound : ∀ a ∈ l, g a < l.length) (le : ∀ a ∈ l, f a ≤ g a) : ∀ a ∈ l, f a = g a := by
  have bound' : ∀ a ∈ l, f a < l.length := fun a member => Nat.lt_of_le_of_lt (le a member) (bound a member)
  have sums : (l.map f).sum = (l.map g).sum :=
    ((perm_range_of_nodup distinct bound').trans (perm_range_of_nodup distinct' bound).symm).sum_eq
  intro a member
  by_contra differ
  have less : f a < g a := Nat.lt_of_le_of_ne (le a member) differ
  exact absurd sums (Nat.ne_of_lt (List.sum_lt_sum f g le ⟨a, member, less⟩))

end Numbering

end Lists
