import Mathlib.Data.List.Forall2
import Infrastructure.Text.Path

/-! Shell patterns for the names of directory entries, as `filepath.Match` reads them, and the paths
that a pattern selects segment by segment. -/

namespace Infrastructure.Text

open List

/-- What a pattern asks of a name: any run of characters, or one character. -/
inductive Glyph where
  | star
  | any
  | literal (char : Char)
  | oneOf (negated : Bool) (ranges : List (Char × Char))
  deriving DecidableEq

namespace Glyph

/-- How far a pattern has been read: in its text, or at a place of a character class. -/
inductive Mode where
  | text
  | quoted
  | opened
  | item (negated : Bool) (ranges : List (Char × Char))
  | itemQuoted (negated : Bool) (ranges : List (Char × Char))
  | low (negated : Bool) (ranges : List (Char × Char)) (lo : Char)
  | high (negated : Bool) (ranges : List (Char × Char)) (lo : Char)
  | highQuoted (negated : Bool) (ranges : List (Char × Char)) (lo : Char)

/-- The first character of an item of a class. -/
def enterItem (negated : Bool) (ranges : List (Char × Char)) (char : Char) :
    Option (Mode × List Glyph) :=
  if char = '-' ∨ char = ']' then none
  else if char = '\\' then some (.itemQuoted negated ranges, [])
  else some (.low negated ranges char, [])

def read : Mode → Char → Option (Mode × List Glyph)
  | .text, char =>
    if char = '*' then some (.text, [.star])
    else if char = '?' then some (.text, [.any])
    else if char = '[' then some (.opened, [])
    else if char = '\\' then some (.quoted, [])
    else some (.text, [.literal char])
  | .quoted, char => some (.text, [.literal char])
  | .opened, char => if char = '^' then some (.item true [], []) else enterItem false [] char
  | .item negated ranges, char =>
    -- a class has at least one item
    if char = ']' ∧ ranges ≠ [] then some (.text, [.oneOf negated ranges])
    else enterItem negated ranges char
  | .itemQuoted negated ranges, char => some (.low negated ranges char, [])
  | .low negated ranges lo, char =>
    if char = '-' then some (.high negated ranges lo, [])
    else if char = ']' then some (.text, [.oneOf negated (ranges ++ [(lo, lo)])])
    else enterItem negated (ranges ++ [(lo, lo)]) char
  | .high negated ranges lo, char =>
    if char = '-' ∨ char = ']' then none
    else if char = '\\' then some (.highQuoted negated ranges lo, [])
    else some (.item negated (ranges ++ [(lo, char)]), [])
  | .highQuoted negated ranges lo, char => some (.item negated (ranges ++ [(lo, char)]), [])

/-- A pattern that ends inside a class or after a backslash is bad. -/
def parse : Mode → List Char → Option (List Glyph)
  | .text, [] => some []
  | _, [] => none
  | mode, char :: rest => do
    let (mode, glyphs) ← read mode char
    return glyphs ++ (← parse mode rest)

def admits : Glyph → Char → Bool
  | .star, _ => false
  | .any, _ => true
  | .literal own, char => own == char
  | .oneOf negated ranges, char => negated != ranges.any fun (lo, hi) => lo ≤ char && char ≤ hi

def matchAll : List Glyph → List Char → Bool
  | [], name => name.isEmpty
  | .star :: rest, name => name.tails.any (matchAll rest)
  | glyph :: rest, name =>
    match name with
    | [] => false
    | char :: name => glyph.admits char && matchAll rest name

end Glyph

/-- Whether the name of a directory entry, which has no slash, matches; a bad pattern matches
none. -/
def glob (pattern name : List Char) : Bool :=
  (Glyph.parse .text pattern).any fun glyphs => Glyph.matchAll glyphs name

/-- A text in which no character has a special meaning. -/
def Literal (text : List Char) : Prop := ∀ char ∈ text, char ∉ ['*', '?', '[', '\\']

instance (text : List Char) : Decidable (Literal text) := List.decidableBAll _ _

theorem glob_literal {text : List Char} (literal : Literal text) (name : List Char) :
    glob text name = true ↔ text = name := by
  have parsed : Glyph.parse .text text = some (text.map .literal) := by
    induction text with
    | nil => rfl
    | cons char rest ih =>
      obtain ⟨own, literal⟩ := forall_mem_cons.mp literal
      simp only [mem_cons, not_or] at own
      simp [Glyph.parse, Glyph.read, own, ih literal]
  rw [glob, parsed, Option.any_some]
  clear parsed literal
  induction text generalizing name with
  | nil => cases name <;> simp [Glyph.matchAll]
  | cons char rest ih => cases name <;> simp [Glyph.matchAll, Glyph.admits, ih]

/-- The names that a pattern selects, one segment after the other. -/
abbrev Selects (pattern names : List Name) : Prop :=
  Forall₂ (fun glyphs name => glob glyphs.text name.text = true) pattern names

/-- The path is one that the pattern selects, going by its text. -/
def Path.Matches (pattern path : Path) : Prop :=
  path.anchor = pattern.anchor ∧ Selects pattern.names path.names

instance (pattern path : Path) : Decidable (pattern.Matches path) :=
  inferInstanceAs (Decidable (_ ∧ _))

theorem selects_append {front pattern names : List Name}
    (literal : ∀ name ∈ front, Literal name.text) :
    Selects (front ++ pattern) names ↔ ∃ rest, names = front ++ rest ∧ Selects pattern rest := by
  induction front generalizing names with
  | nil => simp
  | cons name front ih =>
    obtain ⟨own, literal⟩ := forall_mem_cons.mp literal
    cases names with
    | nil => simp [Selects]
    | cons other names =>
      rw [cons_append, Selects, forall₂_cons, glob_literal own, ← Name.ext_iff]
      refine (and_congr_right fun _ => ih literal).trans ?_
      constructor
      · rintro ⟨rfl, rest, rfl, all⟩
        exact ⟨rest, rfl, all⟩
      · rintro ⟨rest, eq, all⟩
        cases eq
        exact ⟨rfl, rest, rfl, all⟩

theorem matches_descend {base path : Path} {pattern : List Name}
    (literal : ∀ name ∈ base.names, Literal name.text) :
    (base.descend pattern).Matches path ↔ ∃ names,
    path = base.descend names ∧ Selects pattern names := by
  constructor
  · rintro ⟨anchors, all⟩
    obtain ⟨names, whole, rest⟩ := (selects_append literal).mp all
    refine ⟨names, ?_, rest⟩
    rw [Path.descend, ← whole, ← show path.anchor = base.anchor from anchors]
  · rintro ⟨names, rfl, rest⟩
    exact ⟨rfl, (selects_append literal).mpr ⟨names, rfl, rest⟩⟩

end Infrastructure.Text
