import Mathlib.Data.List.DropRight
import Infrastructure.Text.Decimal

/-! Texts as lines, and as words with blanks between them. -/

namespace Infrastructure.Text

open List

/-- `unicode.IsSpace`. -/
def isSpace (char : Char) : Bool :=
  (9 ≤ char.toNat && char.toNat ≤ 13) || (0x2000 ≤ char.toNat && char.toNat ≤ 0x200a) ||
    [0x20, 0x85, 0xa0, 0x1680, 0x2028, 0x2029, 0x202f, 0x205f, 0x3000].contains char.toNat

def fields (text : List Char) : List (List Char) :=
  (text.splitOnP isSpace).filter fun word => !word.isEmpty

def trimSpace (text : List Char) : List Char := (text.dropWhile isSpace).rdropWhile isSpace

def Solid (word : List Char) : Prop := word ≠ [] ∧ ∀ char ∈ word, isSpace char = false

instance (word : List Char) : Decidable (Solid word) :=
  have : Decidable (∀ char ∈ word, isSpace char = false) := List.decidableBAll _ _
  inferInstanceAs (Decidable (_ ∧ _))

def sentence (words : List (List Char)) : List Char := [' '].intercalate words

theorem isSpace_of_isDigit {char : Char} (digit : char.isDigit = true) : isSpace char = false := by
  have bounds := digit_bounds digit
  simp [isSpace]
  omega

theorem solid_toString (n : Nat) : Solid (toString n).toList := by
  have text : (toString n).toList = Nat.toDigits 10 n := by simp
  rw [text]
  refine ⟨Nat.toDigits_ne_nil, ?_⟩
  intro char mem
  exact isSpace_of_isDigit (Nat.isDigit_of_mem_toDigits (by omega) (by omega) mem)

theorem solid_toString_int (n : Int) : Solid (toString n).toList := by
  cases n with
  | ofNat magnitude => exact solid_toString magnitude
  | negSucc magnitude =>
    have text : (toString (Int.negSucc magnitude)).toList =
        '-' :: (toString (magnitude + 1)).toList := String.toList_append
    rw [text]
    refine ⟨cons_ne_nil _ _, forall_mem_cons.mpr ⟨rfl, (solid_toString _).2⟩⟩

section

variable {word text rest : List Char} {space : Char}

theorem fields_append (first snd : List Char) (blank : isSpace space = true) :
    fields (first ++ space :: snd) = fields first ++ fields snd := by
  rw [fields, splitOnP_append_cons first snd blank, filter_append, fields, fields]

theorem fields_cons (blank : isSpace space = true) : fields (space :: text) = fields text :=
  fields_append [] text blank

theorem fields_solid (solid : Solid word) : fields word = [word] := by
  rw [fields, splitOnP_eq_singleton solid.2]
  simp [solid.1]

theorem sentence_cons (word next : List Char) (words : List (List Char)) :
    sentence (word :: next :: words) = word ++ ' ' :: sentence (next :: words) := by
  simp [sentence, List.intercalate, List.intersperse]

theorem fields_sentence {words : List (List Char)} (solid : ∀ word ∈ words, Solid word) :
    fields (sentence words) = words := by
  induction words with
  | nil => rfl
  | cons word words ih =>
    have single := fields_solid (solid word (.head _))
    have ih := ih fun other mem => solid other (.tail _ mem)
    cases words with
    | nil => simpa [sentence] using single
    | cons next words =>
      rw [sentence_cons, fields_append _ _ (by decide), single, ih, singleton_append]

theorem fields_starts (solid : Solid word) (rest : List Char) :
    ∃ tail words, fields (word ++ rest) = (word ++ tail) :: words := by
  have starts : ∃ tail words, (word ++ rest).splitOnP isSpace = (word ++ tail) :: words := by
    have plain := solid.2
    clear solid
    induction word with
    | nil =>
      obtain ⟨tail, words, split⟩ := exists_cons_of_ne_nil (splitOnP_ne_nil isSpace rest)
      exact ⟨tail, words, split⟩
    | cons char word ih =>
      obtain ⟨tail, words, split⟩ := ih fun other mem => plain other (.tail _ mem)
      refine ⟨tail, words, ?_⟩
      rw [cons_append, splitOnP_cons_eq_if_modifyHead, if_neg (by simp [plain char (.head _)]),
        split]
      rfl
  obtain ⟨tail, words, split⟩ := starts
  refine ⟨tail, words.filter fun word => !word.isEmpty, ?_⟩
  rw [fields, split, filter_cons_of_pos (by simp [solid.1])]

theorem fields_ends (solid : Solid word) (front : List Char) :
    ∃ words lead, fields (front ++ word) = words ++ [lead ++ word] := by
  induction front with
  | nil => exact ⟨[], [], by simp [fields_solid solid]⟩
  | cons char front ih =>
    obtain ⟨words, lead, ends⟩ := ih
    cases blank : isSpace char with
    | true => exact ⟨words, lead, by rw [cons_append, fields_cons blank, ends]⟩
    | false =>
      obtain ⟨first, others, split⟩ :=
        exists_cons_of_ne_nil (splitOnP_ne_nil isSpace (front ++ word))
      have after : fields (char :: front ++ word) = (char :: first) :: others.filter fun word =>
          !word.isEmpty := by
        rw [cons_append, fields, splitOnP_cons_eq_if_modifyHead, if_neg (by simp [blank]), split]
        rfl
      have pre : fields (front ++ word) = (first :: others).filter fun word => !word.isEmpty := by
        rw [fields, split]
      rw [ends] at pre
      rw [after]
      cases first with
      | nil => exact ⟨[char] :: words, lead, by simpa using pre.symm⟩
      | cons c first =>
        rw [filter_cons_of_pos rfl] at pre
        cases words with
        | nil =>
          obtain ⟨eq, none⟩ := List.cons.inj pre
          exact ⟨[], char :: lead, by rw [← eq, ← none]; rfl⟩
        | cons other words =>
          obtain ⟨-, eq⟩ := List.cons.inj pre
          exact ⟨(char :: c :: first) :: words, lead, by rw [← eq]; rfl⟩

theorem eq_of_fields (starts : ∀ char ∈ text.head?, isSpace char = false)
    (ends : ∀ char ∈ text.getLast?, isSpace char = false) (single : fields text = [word]) :
    text = word := by
  have parts := takeWhile_append_dropWhile (p := fun char => !isSpace char) (l := text)
  have plain : ∀ char ∈ text.takeWhile fun char => !isSpace char, isSpace char = false := by
    intro char mem
    simpa using mem_takeWhile_imp mem
  cases others : text.dropWhile fun char => !isSpace char with
  | nil =>
    rw [others, append_nil] at parts
    rw [parts] at plain
    cases text with
    | nil => cases single
    | cons char text =>
      rw [fields_solid ⟨cons_ne_nil _ _, plain⟩] at single
      exact List.cons.inj single |>.1
  | cons space others' =>
    have blank : isSpace space = true := by
      have first :=
        head_dropWhile_not (p := fun char => !isSpace char) (l := text) (by rw [others]; simp)
      simpa [others] using first
    have ne : others' ≠ [] := by
      intro empty
      rw [others, empty] at parts
      have last := ends space (by rw [← parts]; simp)
      rw [blank] at last
      cases last
    have head : text.takeWhile (fun char => !isSpace char) ≠ [] := by
      intro empty
      rw [empty, others, nil_append] at parts
      have first := starts space (by rw [← parts]; rfl)
      rw [blank] at first
      cases first
    obtain ⟨front, last, shape⟩ := eq_nil_or_concat others' |>.resolve_left ne
    have solid : Solid [last] := by
      refine ⟨by simp, ?_⟩
      intro char mem
      rw [mem_singleton] at mem
      subst mem
      apply ends char
      rw [← parts, others, shape, concat_eq_append, ← cons_append, ← append_assoc]
      exact List.getLast?_concat
    obtain ⟨words, lead, later⟩ := fields_ends solid front
    rw [← parts, others, fields_append _ _ blank, fields_solid ⟨head, plain⟩, shape,
      concat_eq_append, later] at single
    simp at single

end

section

variable {text : List Char}

theorem trimSpace_last (char : Char) (last : char ∈ (trimSpace text).getLast?) :
    isSpace char = false := by
  obtain ⟨ne, eq⟩ := mem_getLast?_eq_getLast last
  rw [eq]
  exact Bool.eq_false_iff.mpr (rdropWhile_last_not isSpace (text.dropWhile isSpace) ne)

theorem trimSpace_newline (starts : ∀ char ∈ text.head?, isSpace char = false)
    (ends : ∀ char ∈ text.getLast?, isSpace char = false) : trimSpace (text ++ ['\n']) = text := by
  cases text with
  | nil => rfl
  | cons char text =>
    have first : isSpace char = false := starts char rfl
    rw [trimSpace, cons_append, dropWhile_cons_of_neg (by simp [first]), ← cons_append,
      rdropWhile_concat_pos isSpace _ _ (by decide), rdropWhile_eq_self_iff]
    intro ne
    simpa using ends _ (List.getLast?_eq_some_getLast ne)

/-- A line that neither starts nor ends with a blank. -/
structure Line (text : List Char) : Prop where
  some : text ≠ []
  single : '\n' ∉ text
  starts : ∀ char ∈ text.head?, isSpace char = false
  ends : ∀ char ∈ text.getLast?, isSpace char = false

theorem line_of_solid {word : List Char} (solid : Solid word) : Line word where
  some := solid.1
  single mem := by
    have blank := solid.2 _ mem
    cases blank
  starts char first := solid.2 char (mem_of_mem_head? first)
  ends char last := solid.2 char (mem_of_mem_getLast? last)

theorem line_sentence {words : List (List Char)} (ne : words ≠ [])
    (solid : ∀ word ∈ words, Solid word) :
    Line (sentence words) := by
  induction words with
  | nil => exact absurd rfl ne
  | cons word words ih =>
    have first := line_of_solid (solid word (.head _))
    cases words with
    | nil => simpa [sentence] using first
    | cons next words =>
      have rest := ih (cons_ne_nil _ _) fun other mem => solid other (.tail _ mem)
      rw [sentence_cons]
      constructor
      · simp
      · simp [first.single, rest.single]
      · rw [List.head?_append_of_ne_nil _ first.some]
        exact first.starts
      · rw [List.getLast?_append_of_ne_nil _ (cons_ne_nil _ _),
          List.getLast?_cons_of_ne_nil rest.some]
        exact rest.ends

theorem flatMap_lines {lines : List (List Char)} (ne : lines ≠ [])
    (each : ∀ text ∈ lines, Line text) :
    lines.flatMap (fun text => text ++ ['\n']) = ['\n'].intercalate lines ++ ['\n'] ∧
      ['\n'].intercalate lines ≠ [] ∧
      (∀ char ∈ (['\n'].intercalate lines).head?, isSpace char = false) ∧
      ∀ char ∈ (['\n'].intercalate lines).getLast?, isSpace char = false := by
  induction lines with
  | nil => exact absurd rfl ne
  | cons text lines ih =>
    have first := each text (.head _)
    cases lines with
    | nil =>
      exact ⟨by
        simp, by simpa using first.some, by simpa using first.starts, by simpa using first.ends⟩
    | cons next lines =>
      obtain ⟨whole, ne, -, ends⟩ := ih (cons_ne_nil _ _) fun other mem => each other (.tail _ mem)
      have shape : ['\n'].intercalate (text :: next :: lines) = text ++
          '\n' :: ['\n'].intercalate (next :: lines) := by
        simp [List.intercalate, List.intersperse]
      rw [shape]
      refine ⟨?_, by simp, ?_, ?_⟩
      · rw [flatMap_cons, whole]
        simp
      · rw [List.head?_append_of_ne_nil _ first.some]
        exact first.starts
      · rw [List.getLast?_append_of_ne_nil _ (cons_ne_nil _ _), List.getLast?_cons_of_ne_nil ne]
        exact ends

theorem splitOn_trimSpace {lines : List (List Char)} (ne : lines ≠ [])
    (each : ∀ text ∈ lines, Line text) :
    (trimSpace (lines.flatMap fun text => text ++ ['\n'])).splitOn '\n' = lines := by
  obtain ⟨whole, -, starts, ends⟩ := flatMap_lines ne each
  rw [whole, trimSpace_newline starts ends]
  exact splitOn_intercalate '\n' (fun text mem => (each text mem).single) ne

end

end Infrastructure.Text
