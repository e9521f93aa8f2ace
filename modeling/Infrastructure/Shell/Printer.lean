import Infrastructure.Shell.Reader

/-! Printing simple commands so that the shell reads them back: words are made of
bare and single-quoted parts, lines of words and redirections. -/

namespace Infrastructure.Shell

open Text List

/-- Text that means itself when it is written without quotes. -/
def isBare : List Char → Bool
  | [] => false
  | first :: rest => !opensSpecially first && (first :: rest).all fun c => classify c = .ordinary

variable {text : List Char}

theorem isBare_iff : isBare text = true ↔ text ≠ [] ∧ (∀ c ∈ text, classify c = .ordinary) ∧
      ∀ c, text.head? = some c → opensSpecially c = false := by
  cases text with
  | nil => simp [isBare]
  | cons first rest => simp [isBare, and_comm]

theorem isBare_of_fair (ne : text ≠ []) (fair : Fair (text.map .bare)) : isBare text = true := by
  apply isBare_iff.mpr
  refine ⟨ne, ?_, ?_⟩
  · intro c mem
    exact fair.ordinary c (mem_map_of_mem mem)
  · intro c first
    apply fair.head c
    rw [List.head?_map, first]
    rfl

variable {first second : List Char}

theorem isBare_left (ne : first ≠ []) (bare : isBare (first ++ second) = true) :
    isBare first = true := by
  obtain ⟨-, plain, head⟩ := isBare_iff.mp bare
  apply isBare_iff.mpr
  refine ⟨ne, fun c mem => plain c (mem_append_left _ mem), ?_⟩
  intro c got
  apply head c
  rw [List.head?_append, got]
  rfl

/-- Single quotes inside single-quoted text are written outside it. -/
def escapeQuotes (text : List Char) : List Char :=
  text.flatMap fun c => if c = '\'' then ['\'', '\\', '\'', '\''] else [c]

def singleQuoted (text : List Char) : List Char := '\'' :: (escapeQuotes text ++ ['\''])

inductive Part where
  | bare (text : List Char)
  | quoted (text : List Char)
  | parameter (c : Char)

def Part.print (rest : List Char) : Part → List Char
  | .bare text => text ++ rest
  | .quoted text => singleQuoted text ++ rest
  | .parameter c => '$' :: c :: rest

def Part.pieces : Part → Word
  | .bare text => text.map .bare
  | .quoted text => text.map .quoted
  | .parameter c => [.parameter [c] false]

/-- The part is read back as it was meant. -/
def Part.isSound : Part → Bool
  | .bare text => isBare text
  | .quoted _ => true
  | .parameter c => isSpecialParameter c

def printParts (rest : List Char) (parts : List Part) : List Char := parts.foldr (·.print) rest

def spell (parts : List Part) : Word := parts.flatMap Part.pieces

/-- What is written of a command: a word, the output to a file, the errors thrown away. -/
inductive Phrase where
  | word (parts : List Part)
  | output (parts : List Part)
  | silent

def Phrase.print (rest : List Char) : Phrase → List Char
  | .word parts => printParts rest parts
  | .output parts => '>' :: ' ' :: printParts rest parts
  | .silent => ascii "2>/dev/null" ++ rest

def Phrase.item : Phrase → Item
  | .word parts => .word (spell parts)
  | .output parts => .redirect [] .output (spell parts)
  | .silent => .redirect ['2'] .output ((ascii "/dev/null").map .bare)

def areSound (parts : List Part) : Bool := !parts.isEmpty && parts.all Part.isSound

def Phrase.isSound : Phrase → Bool
  | .word parts | .output parts => areSound parts
  | .silent => true

/-- The end of a line, or an alternative to its command. -/
inductive Ending where
  | newline
  | orElse

structure Line where
  command : List Part
  arguments : List Phrase
  ending : Ending := .newline

def Ending.print (rest : List Char) : Ending → List Char
  | .newline => '\n' :: rest
  | .orElse => ascii " || " ++ rest

def Ending.connector : Ending → Connector
  | .newline => .sequence
  | .orElse => .orIf

def Line.print (rest : List Char) (line : Line) : List Char :=
  printParts (line.arguments.foldr (fun phrase rest => ' ' :: phrase.print rest)
    (line.ending.print rest))
    line.command

def Line.meaning (line : Line) : Command :=
  ⟨.word (spell line.command) :: line.arguments.map Phrase.item, line.ending.connector⟩

def Line.isSound (line : Line) : Bool :=
  areSound line.command && !isReserved (spell line.command) && line.arguments.all Phrase.isSound

section

def emit (events : List Event) (result : Option (State × List Event)) :
    Option (State × List Event) :=
  result.map fun (last, more) => (last, events ++ more)

@[simp] theorem emit_nil (out : Option (State × List Event)) : emit [] out = out := by
  cases out <;> rfl

@[simp] theorem emit_emit (first second : List Event) (out : Option (State × List Event)) :
    emit first (emit second out) = emit (first ++ second) out := by
  cases out <;> simp [emit]

theorem run_cons {state next : State} {c : Char} {events : List Event}
    (stepped : step state c = some (next, events)) (rest : List Char) :
    run state (c :: rest) = emit events (run next rest) := by
  rw [run, stepped]
  rfl

theorem run_append {state next : State} {events : List Event}
    (ran : run state text = some (next, events)) (rest : List Char) :
    run state (text ++ rest) = emit events (run next rest) := by
  induction text generalizing state events with
  | nil =>
    cases ran
    rw [emit_nil]
    rfl
  | cons c text ih =>
    simp only [run] at ran
    split at ran
    · cases ran
    · next mid now stepped =>
      obtain ⟨⟨last, more⟩, later, eq⟩ := Option.map_eq_some_iff.mp ran
      cases eq
      rw [cons_append, run_cons stepped, ih later, emit_emit]

variable {expect : Expect} (rest : List Char) {pieces : Word}

theorem step_bare {c : Char} (plain : classify c = .ordinary)
    (free : pieces = [] → opensSpecially c = false) :
    step ⟨.word pieces, expect⟩ c = some (⟨.word (pieces ++ [.bare c]), expect⟩, []) := by
  cases pieces with
  | nil => simp [step, lexStep, unquoted, plain, Shell.ordinary, free rfl, acceptAll]
  | cons piece pieces => simp [step, lexStep, unquoted, plain, Shell.ordinary, acceptAll]

theorem step_blank_bare {c : Char} (plain : classify c = .ordinary)
    (free : opensSpecially c = false) :
    step ⟨.blank, expect⟩ c = some (⟨.word [.bare c], expect⟩, []) := by
  have both : c ≠ '#' ∧ c ≠ '~' := by simpa [opensSpecially] using free
  simp [step, lexStep, unquoted, plain, Shell.ordinary, both.1, both.2, acceptAll]

theorem run_bare (plain : ∀ c ∈ text, classify c = .ordinary)
    (free : pieces = [] → ∀ c, text.head? = some c → opensSpecially c = false) :
    run ⟨.word pieces, expect⟩ (text ++ rest) =
      run ⟨.word (pieces ++ text.map .bare), expect⟩ rest := by
  induction text generalizing pieces with
  | nil => simp
  | cons c text ih =>
    have stepped : step ⟨.word pieces, expect⟩ c =
        some (⟨.word (pieces ++ [.bare c]), expect⟩, []) :=
      step_bare (plain c (.head _)) fun empty => free empty c rfl
    rw [cons_append, run_cons stepped, emit_nil,
      ih (fun other mem => plain other (.tail _ mem)) (by simp)]
    simp

theorem run_escapeQuotes (text : List Char) (pieces : Word) :
    run ⟨.single pieces, expect⟩ (escapeQuotes text ++ '\'' :: rest) =
      run ⟨.word (pieces ++ text.map .quoted), expect⟩ rest := by
  induction text generalizing pieces with
  | nil =>
    rw [map_nil, append_nil]
    exact (run_cons rfl rest).trans (emit_nil _)
  | cons c text ih =>
    have split : escapeQuotes (c :: text) ++ '\'' :: rest =
        (if c = '\'' then ['\'', '\\', '\'', '\''] else [c]) ++
          (escapeQuotes text ++ '\'' :: rest) := by
      simp [escapeQuotes]
    have pushed :
        run ⟨.single pieces, expect⟩ (if c = '\'' then ['\'', '\\', '\'', '\''] else [c]) =
        some (⟨.single (pieces ++ [.quoted c]), expect⟩, []) := by
      by_cases quote : c = '\''
      · subst quote
        rfl
      · simp [quote, run, step, lexStep, acceptAll]
    rw [split, run_append pushed, emit_nil, ih]
    simp

theorem run_part {part : Part} (sound : part.isSound = true) (pieces : Word) :
    run ⟨.word pieces, expect⟩ (part.print rest) =
      run ⟨.word (pieces ++ part.pieces), expect⟩ rest := by
  cases part with
  | bare text =>
    obtain ⟨-, plain, head⟩ := isBare_iff.mp sound
    exact run_bare rest plain fun _ => head
  | quoted text =>
    have opened : step ⟨.word pieces, expect⟩ '\'' = some (⟨.single pieces, expect⟩, []) := rfl
    show run ⟨.word pieces, expect⟩ ('\'' :: (escapeQuotes text ++ ['\'']) ++ rest) = _
    rw [cons_append, run_cons opened, emit_nil, append_assoc, singleton_append, run_escapeQuotes]
    rfl
  | parameter c =>
    have opened : step ⟨.word pieces, expect⟩ '$' = some (⟨.dollar pieces false, expect⟩, []) := rfl
    have special : isSpecialParameter c = true := sound
    have named : step ⟨.dollar pieces false, expect⟩ c =
        some (⟨.word (pieces ++ [.parameter [c] false]), expect⟩, []) := by
      simp [step, lexStep, special, resume, acceptAll]
    show run ⟨.word pieces, expect⟩ ('$' :: c :: rest) = _
    rw [run_cons opened, emit_nil, run_cons named, emit_nil]
    rfl

theorem run_first_part {part : Part} (sound : part.isSound = true) :
    run ⟨.blank, expect⟩ (part.print rest) = run ⟨.word part.pieces, expect⟩ rest := by
  cases part with
  | bare text =>
    obtain ⟨ne, plain, head⟩ := isBare_iff.mp sound
    obtain ⟨c, text, rfl⟩ := exists_cons_of_ne_nil ne
    have started : step ⟨.blank, expect⟩ c = some (⟨.word [.bare c], expect⟩, []) :=
      step_blank_bare (plain c (.head _)) (head c rfl)
    have others : ∀ other ∈ text, classify other = .ordinary := fun other mem =>
      plain other (.tail _ mem)
    show run ⟨.blank, expect⟩ (c :: (text ++ rest)) = _
    rw [run_cons started, emit_nil, run_bare rest others (by simp)]
    rfl
  | quoted text => exact run_part rest sound []
  | parameter c => exact run_part rest sound []

theorem run_parts {parts : List Part} (sound : ∀ part ∈ parts, part.isSound = true)
    (pieces : Word) :
    run ⟨.word pieces, expect⟩ (printParts rest parts) =
      run ⟨.word (pieces ++ spell parts), expect⟩ rest := by
  induction parts generalizing pieces with
  | nil => simp [printParts, spell]
  | cons part parts ih =>
    show run _ (part.print (printParts rest parts)) = _
    rw [run_part _ (sound part mem_cons_self), ih fun other mem => sound other (.tail _ mem)]
    simp [spell]

theorem run_word {parts : List Part} (sound : areSound parts = true) :
    run ⟨.blank, expect⟩ (printParts rest parts) = run ⟨.word (spell parts), expect⟩ rest := by
  simp only [areSound, Bool.and_eq_true, Bool.not_eq_eq_eq_not, Bool.not_true, isEmpty_eq_false_iff,
    all_eq_true] at sound
  obtain ⟨part, parts, rfl⟩ := exists_cons_of_ne_nil sound.1
  show run _ (part.print (printParts rest parts)) = _
  rw [run_first_part _ (sound.2 part mem_cons_self),
    run_parts rest fun other mem => sound.2 other (.tail _ mem)]
  rfl

/-- A phrase after the first word of a command leaves the shell in its last word. -/
theorem run_phrase {phrase : Phrase} (sound : phrase.isSound = true) :
    ∃ pieces expect, accept expect (.word pieces) = some (.more, [.item phrase.item]) ∧
      ∀ rest, run ⟨.blank, .more⟩ (phrase.print rest) = run ⟨.word pieces, expect⟩ rest := by
  cases phrase with
  | word parts => exact ⟨spell parts, .more, rfl, fun rest => run_word rest sound⟩
  | output parts =>
    refine ⟨spell parts, .target [] .output, rfl, fun rest => ?_⟩
    have directed : run ⟨.blank, .more⟩ ['>', ' '] = some (⟨.blank, .target [] .output⟩, []) := rfl
    show run ⟨.blank, .more⟩ (['>', ' '] ++ printParts rest parts) = _
    rw [run_append directed, emit_nil, run_word rest sound]
  | silent =>
    refine ⟨(ascii "/dev/null").map .bare, .target ['2'] .output, rfl, fun rest => ?_⟩
    have directed : run ⟨.blank, .more⟩ (ascii "2>/dev/null") =
        some (⟨.word ((ascii "/dev/null").map .bare), .target ['2'] .output⟩, []) := by
      decide +kernel
    show run ⟨.blank, .more⟩ (ascii "2>/dev/null" ++ rest) = _
    rw [run_append directed, emit_nil]

def Line.events (line : Line) : List Event :=
  line.meaning.items.map .item ++ [.stop line.ending.connector]

theorem step_space {item : Item} (ok : accept expect (.word pieces) = some (.more, [.item item])) :
    step ⟨.word pieces, expect⟩ ' ' = some (⟨.blank, .more⟩, [.item item]) := by
  have lexed : lexStep (.word pieces) ' ' = some (.blank, [.word pieces]) := rfl
  simp [step, lexed, acceptAll, ok]

theorem run_ending {item : Item} (ok : accept expect (.word pieces) = some (.more, [.item item]))
    (ending : Ending) :
    run ⟨.word pieces, expect⟩ (ending.print rest) =
      emit [.item item, .stop ending.connector] (run ⟨.blank, after ending.connector⟩ rest) := by
  cases ending with
  | newline =>
    have stepped : step ⟨.word pieces, expect⟩ '\n' =
        some (⟨.blank, .start⟩, [.item item, .stop .sequence]) := by
      have lexed : lexStep (.word pieces) '\n' = some (.blank, [.word pieces, .newline]) := rfl
      have closed : accept .more .newline = some (.start, [.stop .sequence]) := rfl
      simp [step, lexed, acceptAll, ok, closed]
    exact run_cons stepped rest
  | orElse =>
    have barred : run ⟨.blank, .more⟩ (ascii "|| ") = some (⟨.blank, .operand⟩, [.stop .orIf]) := by
      decide +kernel
    show run _ (' ' :: (ascii "|| " ++ rest)) = _
    rw [run_cons (step_space ok), run_append barred, emit_emit]
    rfl

theorem run_arguments {arguments : List Phrase}
    (sound : ∀ phrase ∈ arguments, phrase.isSound = true) {item : Item} (ending : Ending)
    (ok : accept expect (.word pieces) = some (.more, [.item item])) :
    run ⟨.word pieces,
      expect⟩ (arguments.foldr (fun phrase rest => ' ' :: phrase.print rest) (ending.print rest)) =
      emit (((item :: arguments.map Phrase.item).map .item) ++ [.stop ending.connector])
        (run ⟨.blank, after ending.connector⟩ rest) := by
  induction arguments generalizing pieces item expect with
  | nil => exact run_ending rest ok ending
  | cons phrase arguments ih =>
    obtain ⟨last, expect', accepted', phrased⟩ := run_phrase (sound phrase (.head _))
    rw [foldr_cons, run_cons (step_space ok), phrased,
      ih (fun other mem => sound other (.tail _ mem)) accepted', emit_emit]
    rfl

theorem run_line {line : Line} (sound : line.isSound = true)
    (begins : expect = .start ∨ expect = .operand) :
    run ⟨.blank, expect⟩ (line.print rest) =
      emit line.events (run ⟨.blank, after line.ending.connector⟩ rest) := by
  simp only [Line.isSound, Bool.and_eq_true, Bool.not_eq_eq_eq_not, Bool.not_true,
    all_eq_true] at sound
  obtain ⟨⟨command, notReserved⟩, arguments⟩ := sound
  have ok : accept expect (.word (spell line.command)) =
      some (.more, [.item (.word (spell line.command))]) := by
    rcases begins with rfl | rfl <;> simp [accept, notReserved]
  rw [Line.print, run_word _ command, run_arguments rest arguments line.ending ok]
  rfl

end

def printLines (lines : List Line) : List Char := lines.foldr (fun line rest => line.print rest) []

theorem Part.print_append (part : Part) (first second : List Char) :
    part.print (first ++ second) = part.print first ++ second := by
  cases part with
  | bare text => exact (append_assoc text first second).symm
  | quoted text => exact (append_assoc (singleQuoted text) first second).symm
  | parameter c => rfl

theorem printParts_append (parts : List Part) (first second : List Char) :
    printParts (first ++ second) parts = printParts first parts ++ second := by
  induction parts with
  | nil => rfl
  | cons part parts ih =>
    show part.print (printParts (first ++ second) parts) =
      part.print (printParts first parts) ++ second
    rw [ih, Part.print_append]

theorem Phrase.print_append (phrase : Phrase) (first second : List Char) :
    phrase.print (first ++ second) = phrase.print first ++ second := by
  cases phrase with
  | word parts => exact printParts_append parts first second
  | output parts =>
    show '>' :: ' ' :: printParts (first ++ second) parts = _
    rw [printParts_append]
    rfl
  | silent => exact (append_assoc (ascii "2>/dev/null") first second).symm

theorem Line.print_append (line : Line) (first second : List Char) :
    line.print (first ++ second) = line.print first ++ second := by
  have ending : line.ending.print (first ++ second) = line.ending.print first ++ second := by
    cases line.ending with
    | newline => rfl
    | orElse => exact (append_assoc (ascii " || ") first second).symm
  have arguments : line.arguments.foldr (fun phrase rest => ' ' :: phrase.print rest)
      (line.ending.print first ++ second) =
      line.arguments.foldr (fun phrase rest => ' ' :: phrase.print rest)
        (line.ending.print first) ++ second := by
    induction line.arguments with
    | nil => rfl
    | cons phrase phrases ih => rw [foldr_cons, ih, Phrase.print_append, foldr_cons, cons_append]
  rw [Line.print, ending, arguments, printParts_append]
  rfl

theorem printLines_eq_flatMap (lines : List Line) :
    printLines lines = lines.flatMap fun line => line.print [] := by
  induction lines with
  | nil => rfl
  | cons line lines ih =>
    show line.print (printLines lines) = _
    rw [flatMap_cons, ← ih, ← Line.print_append, nil_append]

def Prints (text : List Char) (lines : List Line) : Prop := printLines lines = text

theorem Prints.nil : Prints [] [] := rfl

theorem Prints.append {lines more : List Line} (left : Prints first lines)
    (right : Prints second more) : Prints (first ++ second) (lines ++ more) := by
  rw [Prints, printLines_eq_flatMap] at *
  rw [flatMap_append, left, right]

theorem Prints.line {line : Line} (printed : line.print [] = text) : Prints text [line] := printed

theorem Prints.ite {cond : Prop} [Decidable cond] {lines more : List Line}
    (left : cond → Prints first lines) (right : ¬ cond → Prints second more) :
    Prints (if cond then first else second) (if cond then lines else more) := by
  split
  · next holds => exact left holds
  · next fails => exact right fails

theorem Prints.flatMap {α : Type} {text : α → List Char} {line : α → Line}
    (printed : ∀ val, (line val).print [] = text val) (vals : List α) :
    Prints (vals.flatMap text) (vals.map line) := by
  rw [Prints, printLines_eq_flatMap, flatMap_map]
  exact congrArg (fun text => vals.flatMap text) (funext printed)

theorem Prints.flatten {texts : List (List Char)} {lines : List (List Line)}
    (each : List.Forall₂ Prints texts lines) : Prints texts.flatten lines.flatten := by
  induction each with
  | nil => exact .nil
  | cons first _ ih => exact first.append ih

/-- What the shell expects after the lines. -/
def following (lines : List Line) : Expect :=
  match lines.getLast? with
  | none => .start
  | some line => after line.ending.connector

variable {lines : List Line}

theorem run_lines (sound : ∀ line ∈ lines, line.isSound = true) {expect : Expect}
    (begins : expect = .start ∨ expect = .operand) (ne : lines ≠ []) :
    run ⟨.blank, expect⟩ (printLines lines) =
      some (⟨.blank, following lines⟩, lines.flatMap Line.events) := by
  induction lines generalizing expect with
  | nil => exact absurd rfl ne
  | cons line lines ih =>
    have next : after line.ending.connector = .start ∨ after line.ending.connector = .operand := by
      cases line.ending with
      | newline => exact Or.inl rfl
      | orElse => exact Or.inr rfl
    show run _ (line.print (printLines lines)) = _
    rw [run_line _ (sound line (.head _)) begins]
    cases lines with
    | nil => simp [printLines, run, emit, following]
    | cons second lines =>
      rw [ih (fun other mem => sound other (.tail _ mem)) next (by simp)]
      simp [emit, following]

theorem group_events (line : Line) (rest : List Event) :
    group [] (line.events ++ rest) = line.meaning :: group [] rest := by
  have gather (items later : List Item) :
      group items (later.map .item ++ .stop line.ending.connector :: rest) =
        ⟨items ++ later, line.ending.connector⟩ :: group [] rest := by
    induction later generalizing items with
    | nil => simp [group]
    | cons item later ih =>
      rw [map_cons, cons_append, group, ih]
      simp
  rw [Line.events, append_assoc]
  exact gather [] line.meaning.items

theorem group_lines (lines : List Line) :
    group [] (lines.flatMap Line.events) = lines.map Line.meaning := by
  induction lines with
  | nil => rfl
  | cons line lines ih => rw [flatMap_cons, group_events, ih, map_cons]

/-- Printed lines are read back as the commands they mean, below any heading the shell
skips. -/
theorem parse_printLines {heading : List Char} (skipped : run initial heading = some (initial, []))
    (sound : ∀ line ∈ lines, line.isSound = true) (ne : lines ≠ [])
    (ends : following lines = .start) :
    parse (heading ++ printLines lines) = some (lines.map Line.meaning) := by
  have ran := run_lines sound (Or.inl rfl) ne
  rw [ends] at ran
  have all : run initial (heading ++ printLines lines) =
      some (initial, lines.flatMap Line.events) := by
    rw [run_append skipped, emit_nil]
    exact ran
  have finished : finish initial = some [] := rfl
  simp [parse, all, finished, group_lines]

theorem isBare_of_parse {script : List Char}
    (read : parse script = some (lines.map Line.meaning)) {line : Line} (mem : line ∈ lines)
    {phrase : Phrase} {text rest : List Char} (seen : phrase ∈ line.arguments)
    (spelled : phrase.item.text = (text ++ rest).map .bare) (ne : text ≠ []) :
    isBare text = true := by
  have fair := parse_fair read line.meaning (mem_map_of_mem mem) phrase.item (by
    rw [Line.meaning]
    exact .tail _ (mem_map_of_mem seen))
  rw [spelled] at fair
  exact isBare_left ne (isBare_of_fair (by simp [ne]) fair)

end Infrastructure.Shell
