import Mathlib.Data.List.Basic

namespace Tokenizer

variable {α : Type*} {sep : α}

/-- Each piece with the separators in front of it, one more than the number says. -/
def spaced (sep : α) (pieces : List (Nat × List α)) : List α :=
  pieces.flatMap fun piece => List.replicate (piece.1 + 1) sep ++ piece.2

theorem boundary_spaced (pieces : List (Nat × List α)) (n : Nat) :
    spaced sep pieces ++ List.replicate n sep = [] ∨
      ∃ text, spaced sep pieces ++ List.replicate n sep = sep :: text := by
  cases pieces with
  | nil =>
    cases n with
    | zero => exact Or.inl rfl
    | succ n => exact Or.inr ⟨List.replicate n sep, rfl⟩
  | cons piece pieces =>
    refine Or.inr ⟨List.replicate piece.1 sep ++ piece.2 ++ spaced sep pieces ++ List.replicate n sep, ?_⟩
    simp [spaced, List.replicate_succ]

variable [BEq α]

def tokens (sep : α) (text : List α) : List (List α) := (text.splitOn sep).filter fun piece => !piece.isEmpty

theorem ne_nil_of_mem_tokens {text piece : List α} (member : piece ∈ tokens sep text) : piece ≠ [] := by
  have nonempty := (List.mem_filter.mp member).2
  simpa using nonempty

@[simp] theorem tokens_nil : tokens sep [] = [] := by simp [tokens, List.splitOn_nil]

variable [LawfulBEq α]

theorem tokens_append_sep (before after : List α) :
    tokens sep (before ++ sep :: after) = tokens sep before ++ tokens sep after := by
  unfold tokens
  rw [List.splitOn_append_cons_self, List.filter_append]

theorem tokens_cons_sep (text : List α) : tokens sep (sep :: text) = tokens sep text := by
  calc tokens sep (sep :: text) = tokens sep [] ++ tokens sep text := tokens_append_sep [] text
    _ = tokens sep text := by rw [tokens_nil, List.nil_append]

theorem tokens_replicate_append (n : Nat) (text : List α) :
    tokens sep (List.replicate n sep ++ text) = tokens sep text := by
  induction n with
  | zero => rfl
  | succ n ih => rw [List.replicate_succ, List.cons_append, tokens_cons_sep, ih]

theorem tokens_replicate (n : Nat) : tokens sep (List.replicate n sep) = [] := by
  calc tokens sep (List.replicate n sep) = tokens sep (List.replicate n sep ++ []) := by rw [List.append_nil]
    _ = [] := by rw [tokens_replicate_append, tokens_nil]

theorem tokens_of_not_mem {piece : List α} (nonempty : piece ≠ []) (clean : sep ∉ piece) :
    tokens sep piece = [piece] := by
  unfold tokens
  rw [List.splitOn_eq_singleton clean]
  simpa using nonempty

theorem tokens_append_of_boundary {piece rest : List α} (nonempty : piece ≠ []) (clean : sep ∉ piece)
    (boundary : rest = [] ∨ ∃ text, rest = sep :: text) :
    tokens sep (piece ++ rest) = piece :: tokens sep rest := by
  rcases boundary with rfl | ⟨text, rfl⟩
  · rw [List.append_nil, tokens_of_not_mem nonempty clean, tokens_nil]
  · rw [tokens_append_sep, tokens_of_not_mem nonempty clean, tokens_cons_sep, List.singleton_append]

theorem tokens_cons_ne_nil {c : α} (other : c ≠ sep) (text : List α) : tokens sep (c :: text) ≠ [] := by
  by_cases member : sep ∈ c :: text
  · obtain ⟨piece, after, split, clean⟩ := List.eq_append_cons_of_mem member
    have nonempty : piece ≠ [] := by
      rintro rfl
      exact other (List.cons.inj split).1
    rw [split, tokens_append_of_boundary nonempty clean (Or.inr ⟨after, rfl⟩)]
    exact List.cons_ne_nil _ _
  · rw [tokens_of_not_mem (List.cons_ne_nil _ _) member]
    exact List.cons_ne_nil _ _

theorem tokens_eq_nil_iff (text : List α) : tokens sep text = [] ↔ ∀ c ∈ text, c = sep := by
  constructor
  · intro none
    induction text with
    | nil => simp
    | cons c text ih =>
      have same : c = sep := by
        by_contra other
        exact tokens_cons_ne_nil other text none
      subst same
      rw [tokens_cons_sep] at none
      exact List.forall_mem_cons.mpr ⟨rfl, ih none⟩
  · intro all
    rw [List.eq_replicate_of_mem all]
    exact tokens_replicate _

theorem not_mem_of_mem_tokens {text piece : List α} (member : piece ∈ tokens sep text) : sep ∉ piece := by
  induction n : text.length using Nat.strongRecOn generalizing text with
  | ind n ih =>
    by_cases inside : sep ∈ text
    · obtain ⟨before, after, rfl, clean⟩ := List.eq_append_cons_of_mem inside
      rw [List.length_append, List.length_cons] at n
      rw [tokens_append_sep] at member
      rcases List.mem_append.mp member with first | later
      · by_cases empty : before = []
        · simp [empty] at first
        · rw [tokens_of_not_mem empty clean, List.mem_singleton] at first
          exact first ▸ clean
      · exact ih after.length (by omega) later rfl
    · by_cases empty : text = []
      · simp [empty] at member
      · rw [tokens_of_not_mem empty inside, List.mem_singleton] at member
        exact member ▸ inside

/-- The tokenizer takes such a text apart again. -/
theorem tokens_spaced (pieces : List (Nat × List α)) (n : Nat)
    (clean : ∀ piece ∈ pieces, piece.2 ≠ [] ∧ sep ∉ piece.2) :
    tokens sep (spaced sep pieces ++ List.replicate n sep) = pieces.map Prod.snd := by
  induction pieces with
  | nil => exact tokens_replicate n
  | cons piece pieces ih =>
    obtain ⟨⟨nonempty, free⟩, rest⟩ := List.forall_mem_cons.mp clean
    calc tokens sep (spaced sep (piece :: pieces) ++ List.replicate n sep)
        = tokens sep (List.replicate (piece.1 + 1) sep ++
            (piece.2 ++ (spaced sep pieces ++ List.replicate n sep))) := by simp [spaced]
      _ = piece.2 :: tokens sep (spaced sep pieces ++ List.replicate n sep) := by
        rw [tokens_replicate_append, tokens_append_of_boundary nonempty free (boundary_spaced pieces n)]
      _ = (piece :: pieces).map Prod.snd := by rw [ih rest, List.map_cons]

theorem tokens_append_spaced {first : List α} (nonempty : first ≠ []) (free : sep ∉ first)
    (pieces : List (Nat × List α)) (n : Nat) (clean : ∀ piece ∈ pieces, piece.2 ≠ [] ∧ sep ∉ piece.2) :
    tokens sep (first ++ (spaced sep pieces ++ List.replicate n sep)) = first :: pieces.map Prod.snd := by
  rw [tokens_append_of_boundary nonempty free (boundary_spaced pieces n), tokens_spaced pieces n clean]

/-- A text is cut at its first separator. -/
theorem idxOf?_append_cons {before : List α} (clean : sep ∉ before) (after : List α) :
    (before ++ sep :: after).idxOf? sep = some before.length := by
  induction before with
  | nil => simp [List.idxOf?_cons]
  | cons c before ih =>
    rw [List.mem_cons, not_or] at clean
    have other : (c == sep) = false := beq_eq_false_iff_ne.mpr (Ne.symm clean.1)
    rw [List.cons_append, List.idxOf?_cons, other, ih clean.2]
    rfl

end Tokenizer
