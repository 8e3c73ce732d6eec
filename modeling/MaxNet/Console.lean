import MaxNet.Lib.Lists

namespace MaxNet

inductive Post
  | cout (line : List Char)
  | cerr (line : List Char)
  deriving DecidableEq

structure ConsoleStreamAdapter where
  separatorChar : List Char
  spaceSeparator : Bool
  sstr : List Char := []
  deriving DecidableEq

namespace ConsoleStreamAdapter

def make (spaceSeparated : Bool) (separatorChar : List Char) : ConsoleStreamAdapter :=
  { separatorChar, spaceSeparator := spaceSeparated }

def hasSepChar (a : ConsoleStreamAdapter) : Bool := decide (a.separatorChar.length > 0)

def spaceSeparated (a : ConsoleStreamAdapter) : Bool := a.spaceSeparator

def append (text : List Char) (a : ConsoleStreamAdapter) : ConsoleStreamAdapter := { a with sstr := a.sstr ++ text }

def put (a : ConsoleStreamAdapter) (input : List Char) : ConsoleStreamAdapter :=
  let a := a.append input
  let a := if a.spaceSeparated then a.append [' '] else a
  if a.hasSepChar then
    let a := a.append a.separatorChar
    if a.spaceSeparated then a.append [' '] else a
  else a

/-- `pop_back()` of an empty string is undefined. -/
def popBack : List Char → Option (List Char)
  | [] => none
  | out => some out.dropLast

def endl (a : ConsoleStreamAdapter) : Option (List Char × ConsoleStreamAdapter) := do
  let out := a.sstr
  let out ← if a.spaceSeparated then popBack out else some out
  let out ← if a.hasSepChar then popBack out else some out
  return (out, { a with sstr := [] })

def call (a : ConsoleStreamAdapter) (current : List Char) : List (List Char) → Option (List Char × ConsoleStreamAdapter)
  | [] => (a.put current).endl
  | next :: rest => (a.put current).call next rest

inductive Line
  | streamed (first : List Char) (rest : List (List Char))
  | called (first : List Char) (rest : List (List Char))

def Line.items : Line → List (List Char)
  | streamed first rest => first :: rest
  | called first rest => first :: rest

def line (a : ConsoleStreamAdapter) : Line → Option (List Char × ConsoleStreamAdapter)
  | .streamed first rest => ((first :: rest).foldl put a).endl
  | .called first rest => a.call first rest

def lines (a : ConsoleStreamAdapter) : List Line → Option (List (List Char))
  | [] => some []
  | l :: ls => do
    let (out, a) ← a.line l
    let outs ← a.lines ls
    return out :: outs

def joint (spaceSeparated : Bool) (separatorChar : List Char) : List Char :=
  match spaceSeparated, separatorChar with
  | true, [] => [' ']
  | false, text => text
  | true, text => [' '] ++ text ++ [' ']

def separator (a : ConsoleStreamAdapter) : List Char := joint a.spaceSeparator a.separatorChar

def residue (a : ConsoleStreamAdapter) : List Char :=
  match a.spaceSeparator, a.separatorChar with
  | true, [] => []
  | false, text => text.dropLast
  | true, text => [' '] ++ text.dropLast

theorem put_eq (a : ConsoleStreamAdapter) (input : List Char) : a.put input = a.append (input ++ a.separator) := by
  rcases a with ⟨separatorChar, spaceSeparator, sstr⟩
  cases spaceSeparator with
  | false => cases separatorChar <;> simp [put, append, separator, joint, hasSepChar, spaceSeparated]
  | true => cases separatorChar <;> simp [put, append, separator, joint, hasSepChar, spaceSeparated]

theorem foldl_put (items : List (List Char)) (a : ConsoleStreamAdapter) :
    items.foldl put a = a.append (items.flatMap fun item => item ++ a.separator) := by
  induction items generalizing a with
  | nil => simp [append]
  | cons item items ih =>
    rw [List.foldl_cons, put_eq, ih, List.flatMap_cons]
    simp [append, separator]

theorem call_eq (a : ConsoleStreamAdapter) (current : List Char) (rest : List (List Char)) :
    a.call current rest = ((current :: rest).foldl put a).endl := by
  induction rest generalizing a current with
  | nil => rfl
  | cons next rest ih => exact ih (a.put current) next

theorem line_eq (a : ConsoleStreamAdapter) (l : Line) : a.line l = (l.items.foldl put a).endl := by
  cases l with
  | streamed first rest => rfl
  | called first rest => exact call_eq a first rest

theorem popBack_append (text : List Char) {rest : List Char} (nonempty : rest ≠ []) :
    popBack (text ++ rest) = some (text ++ rest.dropLast) := by
  rw [← List.dropLast_append_of_ne_nil nonempty]
  cases whole : text ++ rest with
  | nil => exact absurd (List.append_eq_nil_iff.mp whole).2 nonempty
  | cons c out => rfl

theorem endl_append {a : ConsoleStreamAdapter} (fresh : a.sstr = [])
    (separated : a.spaceSeparator = true ∨ a.separatorChar ≠ []) (text : List Char) :
    (a.append (text ++ a.separator)).endl = some (text ++ a.residue, a) := by
  rcases a with ⟨separatorChar, spaceSeparator, sstr⟩
  simp only at fresh separated
  subst fresh
  cases separatorChar with
  | nil =>
    cases spaceSeparator with
    | false => simp at separated
    | true =>
      have popped := popBack_append text (List.cons_ne_nil ' ' [])
      simp [endl, append, separator, joint, residue, spaceSeparated, hasSepChar, popped]
  | cons c rest =>
    have last := popBack_append text (List.cons_ne_nil c rest)
    cases spaceSeparator with
    | false => simp [endl, append, separator, joint, residue, spaceSeparated, hasSepChar, last]
    | true =>
      have blank : popBack (text ++ ' ' :: c :: (rest ++ [' '])) = some (text ++ ' ' :: c :: rest) := by
        have popped := popBack_append (text ++ ' ' :: c :: rest) (List.cons_ne_nil ' ' [])
        simpa using popped
      have next : popBack (text ++ ' ' :: c :: rest) = some (text ++ ' ' :: (c :: rest).dropLast) := by
        have popped := popBack_append (text ++ [' ']) (List.cons_ne_nil c rest)
        simpa using popped
      simp [endl, append, separator, joint, residue, spaceSeparated, hasSepChar, blank, next]

theorem line_joined {a : ConsoleStreamAdapter} (fresh : a.sstr = [])
    (separated : a.spaceSeparator = true ∨ a.separatorChar ≠ []) (l : Line) :
    a.line l = some (a.separator.intercalate l.items ++ a.residue, a) := by
  have nonempty : ∃ first rest, l.items = first :: rest := by
    cases l with
    | streamed first rest => exact ⟨first, rest, rfl⟩
    | called first rest => exact ⟨first, rest, rfl⟩
  obtain ⟨first, rest, items⟩ := nonempty
  rw [line_eq, foldl_put, items, Lists.flatMap_append_eq]
  exact endl_append fresh separated _

theorem lines_joined {a : ConsoleStreamAdapter} (fresh : a.sstr = [])
    (separated : a.spaceSeparator = true ∨ a.separatorChar ≠ []) (ls : List Line) :
    a.lines ls = some (ls.map fun l => a.separator.intercalate l.items ++ a.residue) := by
  induction ls with
  | nil => rfl
  | cons l ls ih => simp [lines, line_joined fresh separated l, ih]

theorem residue_eq_nil_iff {a : ConsoleStreamAdapter} (separated : a.spaceSeparator = true ∨ a.separatorChar ≠ []) :
    a.residue = [] ↔
      (a.spaceSeparator = true ∧ a.separatorChar = []) ∨
        (a.spaceSeparator = false ∧ a.separatorChar.length = 1) := by
  rcases a with ⟨separatorChar, spaceSeparator, sstr⟩
  cases spaceSeparator with
  | true => cases separatorChar <;> simp [residue]
  | false =>
    cases separatorChar with
    | nil => simp at separated
    | cons c rest => cases rest <;> simp [residue]

/-- The lines come out joined by the separator exactly for blanks alone and for a text of one character
    alone. -/
theorem joins_iff (spaceSeparated : Bool) (separatorChar : List Char)
    (separated : spaceSeparated = true ∨ separatorChar ≠ []) (ls : List Line) :
    (make spaceSeparated separatorChar).lines ls =
        some (ls.map fun l => (joint spaceSeparated separatorChar).intercalate l.items) ↔
      ls = [] ∨ (spaceSeparated = true ∧ separatorChar = []) ∨
        (spaceSeparated = false ∧ separatorChar.length = 1) := by
  have left := residue_eq_nil_iff (a := make spaceSeparated separatorChar) separated
  rw [lines_joined rfl separated ls, Option.some.injEq, List.map_inj_left]
  constructor
  · intro same
    cases ls with
    | nil => exact Or.inl rfl
    | cons l ls =>
      have whole := same l (List.mem_cons_self ..)
      have nothing := List.append_right_eq_self.mp whole
      exact Or.inr (left.mp nothing)
  · intro either
    rcases either with rfl | clean
    · simp
    · intro l _
      rw [left.mpr clean, List.append_nil]
      rfl

theorem joins_iff_blank :
    (make true []).lines [.streamed ['a'] [['b']], .called ['c'] []] = some [['a', ' ', 'b'], ['c']] :=
  (joins_iff true [] (Or.inl rfl) [.streamed ['a'] [['b']], .called ['c'] []]).mpr (Or.inr (Or.inl ⟨rfl, rfl⟩))

/-- A blank is left behind, and of a longer text all but its last character. -/
theorem separator_left :
    (make true [',']).lines [.streamed ['a'] [['b']]] = some [['a', ' ', ',', ' ', 'b', ' ']] ∧
      (make false [':', ':']).lines [.called ['a'] []] = some [['a', ':']] ∧
      ¬ (make false [':', ':']).lines [.called ['a'] []] = some [['a']] := by
  decide

end ConsoleStreamAdapter

end MaxNet
