/-!
# Occurrences of a form in a text

A `Recogniser` reads one form of text (a tag, a declaration, …) at the start of what it is given: it
answers with a value and with the text that remains.  Looking for the form from left to right
divides a text into pieces, plain characters and occurrences; after an occurrence the search goes on
behind it, so occurrences do not overlap.

## Main definitions

* `Recogniser` — a reader of one form.
* `Piece`, `pieces` — a text divided into plain characters and occurrences.
* `occurrences` — the occurrences with their places.
* `replaceAll` — a text with every occurrence replaced.
* `first?` — the text before the first occurrence, the occurrence, and the text after it.

## Main results

* `flatMap_text_pieces` — the pieces put together again are the text.
* `replaceAll_cons_of_none` — what is not read is kept.
-/

namespace SceneMarkup
namespace Text

/-- A reader of one form of text: the value read and the text that remains. -/
abbrev Recogniser (α : Type) := List Char → Option (α × List Char)

/-- A part of a divided text. -/
inductive Piece (α : Type) where
  /-- A character that belongs to no occurrence. -/
  | plain (c : Char)
  /-- An occurrence: its text and the value read from it. -/
  | found (text : List Char) (value : α)
  deriving Repr

/-- The text of a piece. -/
def Piece.text {α : Type} : Piece α → List Char
  | .plain c => [c]
  | .found t _ => t

@[simp] theorem Piece.text_plain {α : Type} (c : Char) : (Piece.plain c : Piece α).text = [c] := rfl

@[simp] theorem Piece.text_found {α : Type} (t : List Char) (a : α) :
    (Piece.found t a).text = t := rfl

/-- The pieces of a text of which `skip` characters belong to an occurrence already listed. -/
def piecesFrom {α : Type} (p : Recogniser α) : Nat → List Char → List (Piece α)
  | _, [] => []
  | skip + 1, _ :: s => piecesFrom p skip s
  | 0, c :: s =>
    match p (c :: s) with
    | none => .plain c :: piecesFrom p 0 s
    | some (a, rest) =>
      .found (c :: s.take (s.length - rest.length)) a :: piecesFrom p (s.length - rest.length) s

/-- A text divided into plain characters and the occurrences of the form that `p` reads. -/
def pieces {α : Type} (p : Recogniser α) (s : List Char) : List (Piece α) := piecesFrom p 0 s

@[simp] theorem pieces_nil {α : Type} (p : Recogniser α) : pieces p [] = [] := rfl

/-- Passing over characters is dropping them. -/
theorem piecesFrom_eq_pieces_drop {α : Type} (p : Recogniser α) (skip : Nat) (s : List Char) :
    piecesFrom p skip s = pieces p (s.drop skip) := by
  induction s generalizing skip with
  | nil => cases skip <;> simp [piecesFrom, pieces]
  | cons c s ih =>
    cases skip with
    | zero => rfl
    | succ skip => simpa [piecesFrom] using ih skip

theorem pieces_cons_of_none {α : Type} {p : Recogniser α} {c : Char} {s : List Char}
    (h : p (c :: s) = none) : pieces p (c :: s) = .plain c :: pieces p s := by
  simp [pieces, piecesFrom, h]

theorem pieces_cons_of_some {α : Type} {p : Recogniser α} {c : Char} {s rest : List Char} {a : α}
    (h : p (c :: s) = some (a, rest)) :
    pieces p (c :: s) =
      .found (c :: s.take (s.length - rest.length)) a ::
        pieces p (s.drop (s.length - rest.length)) := by
  rw [← piecesFrom_eq_pieces_drop]
  simp [pieces, piecesFrom, h]

/-- The pieces put together again are the text. -/
theorem flatMap_text_pieces {α : Type} (p : Recogniser α) (s : List Char) :
    (pieces p s).flatMap Piece.text = s := by
  suffices h : ∀ skip, (piecesFrom p skip s).flatMap Piece.text = s.drop skip from h 0
  induction s with
  | nil => intro skip; cases skip <;> simp [piecesFrom]
  | cons c s ih =>
    intro skip
    cases skip with
    | zero =>
      simp only [piecesFrom]
      split
      · simpa using ih 0
      · rw [List.flatMap_cons, ih]
        simp
    | succ skip => simpa [piecesFrom] using ih skip

/-- An occurrence and its place. -/
structure Occurrence (α : Type) where
  /-- How many characters stand before it. -/
  start : Nat
  /-- Its text. -/
  text : List Char
  /-- The value read from it. -/
  value : α
  deriving Repr

/-- How many characters stand before the end of an occurrence. -/
def Occurrence.stop {α : Type} (o : Occurrence α) : Nat := o.start + o.text.length

/-- The occurrences among pieces in front of which `n` characters stand. -/
def placed {α : Type} (n : Nat) : List (Piece α) → List (Occurrence α)
  | [] => []
  | .plain _ :: ps => placed (n + 1) ps
  | .found t a :: ps => ⟨n, t, a⟩ :: placed (n + t.length) ps

/-- The occurrences of a form in a text, from left to right. -/
def occurrences {α : Type} (p : Recogniser α) (s : List Char) : List (Occurrence α) :=
  placed 0 (pieces p s)

/-- The values read at the occurrences of a form. -/
def values {α : Type} (p : Recogniser α) (s : List Char) : List α :=
  (occurrences p s).map Occurrence.value

/-- The text that replaces a piece when every occurrence is replaced by `f`. -/
def Piece.replaced {α : Type} (f : List Char → α → List Char) : Piece α → List Char
  | .plain c => [c]
  | .found t a => f t a

@[simp] theorem Piece.replaced_plain {α : Type} (f : List Char → α → List Char) (c : Char) :
    (Piece.plain c : Piece α).replaced f = [c] := rfl

@[simp] theorem Piece.replaced_found {α : Type} (f : List Char → α → List Char) (t : List Char)
    (a : α) : (Piece.found t a).replaced f = f t a := rfl

/-- A text in which every occurrence is replaced by what `f` makes of its text and value. -/
def replaceAll {α : Type} (p : Recogniser α) (f : List Char → α → List Char) (s : List Char) :
    List Char :=
  (pieces p s).flatMap (Piece.replaced f)

@[simp] theorem replaceAll_nil {α : Type} (p : Recogniser α) (f : List Char → α → List Char) :
    replaceAll p f [] = [] := rfl

theorem replaceAll_cons_of_none {α : Type} {p : Recogniser α} {f : List Char → α → List Char}
    {c : Char} {s : List Char} (h : p (c :: s) = none) :
    replaceAll p f (c :: s) = c :: replaceAll p f s := by
  simp [replaceAll, pieces_cons_of_none h]

/-- The text before the first occurrence of a form, the value read from it, and the text after. -/
def first? {α : Type} (p : Recogniser α) : List Char → Option (List Char × α × List Char)
  | [] => none
  | c :: s =>
    match p (c :: s) with
    | some (a, rest) => some ([], a, rest)
    | none =>
      match first? p s with
      | some (u, a, rest) => some (c :: u, a, rest)
      | none => none

/-- Whether a form occurs in a text. -/
def occurs {α : Type} (p : Recogniser α) (s : List Char) : Bool := (first? p s).isSome

end Text
end SceneMarkup
