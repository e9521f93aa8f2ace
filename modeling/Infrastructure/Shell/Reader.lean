import Infrastructure.Text.Path
import Mathlib.Data.List.Forall2

/-! How a POSIX shell reads a script of simple commands: characters to tokens,
tokens to commands. Scripts with compound commands, here-documents or command
substitutions are outside this reader, which returns nothing for them and for
text that is no script. -/

namespace Infrastructure.Shell

open Text List Option

/-- A character of a word or an expansion in it; a `pattern` character asks for pathname
expansion. -/
inductive Piece where
  | bare (c : Char)
  | quoted (c : Char)
  | pattern (c : Char)
  | tilde
  | parameter (name : List Char) (quoted : Bool)
  deriving DecidableEq, Repr

abbrev Word := List Piece

inductive Direction where
  | input
  | output
  | append
  | inputFrom
  | outputTo
  | both
  | clobber
  deriving DecidableEq, Repr

inductive Connector where
  | sequence
  | background
  | pipe
  | andIf
  | orIf
  deriving DecidableEq, Repr

inductive Token where
  | word (word : Word)
  | number (digits : List Char)
  | direction (direction : Direction)
  | control (connector : Connector)
  | newline
  deriving DecidableEq, Repr

/-- Where the lexer stands. `escape none` is a backslash before which no word had begun. -/
inductive Mode where
  | blank
  | comment
  | word (pieces : Word)
  | single (pieces : Word)
  | double (pieces : Word)
  | escape (started : Option Word)
  | doubleEscape (pieces : Word)
  | dollar (pieces : Word) (inDouble : Bool)
  | name (pieces : Word) (letters : List Char) (inDouble : Bool)
  | operator (first : Char)
  deriving DecidableEq, Repr

/-- What a character means outside quotes. -/
inductive Class where
  | blank
  | newline
  | operator
  | singleQuote
  | doubleQuote
  | backslash
  | dollar
  | pattern
  | refused
  | ordinary
  deriving DecidableEq, Repr

def classify (c : Char) : Class :=
  if c = ' ' ∨ c = '\t' then .blank
  else if c = '\n' then .newline
  else if c ∈ ['|', '&', ';', '<', '>'] then .operator
  else if c = '\'' then .singleQuote
  else if c = '"' then .doubleQuote
  else if c = '\\' then .backslash
  else if c = '$' then .dollar
  else if c ∈ ['*', '?', '['] then .pattern
  else if c ∈ ['(', ')', '\x60'] then .refused
  else .ordinary

/-- Characters with a meaning of their own at the start of a word. -/
def opensSpecially (c : Char) : Bool := c = '#' || c = '~'

/-- The digits of a word that is a number, as before a redirection. -/
def digits : Word → Option (List Char)
  | [] => some []
  | .bare c :: rest =>
    if c.isDigit then (digits rest).map (c :: ·) else none
  | _ :: _ => none

/-- The tokens that end when a word does. -/
def ended (started : Option Word) : List Token :=
  match started with
  | none => []
  | some pieces => [.word pieces]

def endedBefore (c : Char) (started : Option Word) : List Token :=
  match started with
  | none => []
  | some pieces =>
    match digits pieces with
    | some (digit :: more) =>
      if c = '<' || c = '>' then [.number (digit :: more)] else [.word pieces]
    | _ => [.word pieces]

/-- An ordinary character outside quotes. -/
def ordinary (started : Option Word) (c : Char) : Mode :=
  match started with
  | none =>
    if c = '#' then .comment
    else if c = '~' then .word [.tilde]
    else .word [.bare c]
  -- after empty quotes these stand for themselves
  | some [] => if opensSpecially c then .word [.quoted c] else .word [.bare c]
  | some pieces => .word (pieces ++ [.bare c])

/-- A character outside quotes; `started` is the word it may continue. -/
def unquoted (started : Option Word) (c : Char) : Option (Mode × List Token) :=
  match classify c with
  | .blank => some (.blank, ended started)
  | .newline => some (.blank, ended started ++ [.newline])
  | .operator => some (.operator c, endedBefore c started)
  | .singleQuote => some (.single (started.getD []), [])
  | .doubleQuote => some (.double (started.getD []), [])
  | .backslash => some (.escape started, [])
  | .dollar => some (.dollar (started.getD []) false, [])
  | .pattern => some (.word (started.getD [] ++ [.pattern c]), [])
  | .refused => none
  | .ordinary => some (ordinary started c, [])

def doubled (pieces : Word) (c : Char) : Option (Mode × List Token) :=
  if c = '"' then some (.word pieces, [])
  else if c = '\\' then some (.doubleEscape pieces, [])
  else if c = '$' then some (.dollar pieces true, [])
  else if c = '\x60' then none
  else some (.double (pieces ++ [.quoted c]), [])

def isNameStart (c : Char) : Bool := c.isAlpha || c = '_'

def isSpecialParameter (c : Char) : Bool :=
  c.isDigit || ['@', '*', '#', '?', '-', '$', '!'].contains c

def resume (pieces : Word) (inDouble : Bool) : Mode :=
  if inDouble then .double pieces else .word pieces

def single (first : Char) : Option Token :=
  if first = '&' then some (.control .background)
  else if first = '|' then some (.control .pipe)
  else if first = ';' then some (.control .sequence)
  else if first = '<' then some (.direction .input)
  else if first = '>' then some (.direction .output)
  else none

def pair (first second : Char) : Option Token :=
  if first = '&' ∧ second = '&' then some (.control .andIf)
  else if first = '|' ∧ second = '|' then some (.control .orIf)
  else if first = '>' ∧ second = '>' then some (.direction .append)
  else if first = '<' ∧ second = '&' then some (.direction .inputFrom)
  else if first = '>' ∧ second = '&' then some (.direction .outputTo)
  else if first = '<' ∧ second = '>' then some (.direction .both)
  else if first = '>' ∧ second = '|' then some (.direction .clobber)
  else none

def lexStep : Mode → Char → Option (Mode × List Token)
  | .blank, c => unquoted none c
  | .comment, c => if c = '\n' then some (.blank, [.newline]) else some (.comment, [])
  | .word pieces, c => unquoted (some pieces) c
  | .single pieces, c =>
    if c = '\'' then some (.word pieces, [])
    else some (.single (pieces ++ [.quoted c]), [])
  | .double pieces, c => doubled pieces c
  | .escape started, c =>
    if c = '\n' then
      match started with
      | none => some (.blank, [])
      | some pieces => some (.word pieces, [])
    else some (.word (started.getD [] ++ [.quoted c]), [])
  | .doubleEscape pieces, c =>
    if ['$', '\x60', '"', '\\'].contains c then some (.double (pieces ++ [.quoted c]), [])
    else if c = '\n' then some (.double pieces, [])
    else some (.double (pieces ++ [.quoted '\\', .quoted c]), [])
  | .dollar pieces inDouble, c =>
    if isSpecialParameter c then
      some (resume (pieces ++ [.parameter [c] inDouble]) inDouble, [])
    else if isNameStart c then some (.name pieces [c] inDouble, [])
    else none
  | .name pieces letters inDouble, c =>
    if isNameStart c || c.isDigit then some (.name pieces (letters ++ [c]) inDouble, [])
    else if inDouble then doubled (pieces ++ [.parameter letters true]) c
    else unquoted (some (pieces ++ [.parameter letters false])) c
  | .operator first, c =>
    if (first = '<' ∧ c = '<') ∨ (first = ';' ∧ c = ';') then none
    else
      match pair first c with
      | some token => some (.blank, [token])
      | none =>
        match single first, unquoted none c with
        | some token, some (mode, tokens) => some (mode, token :: tokens)
        | _, _ => none

/-- The tokens that the end of the script completes. -/
def lexEnd : Mode → Option (List Token)
  | .blank | .comment => some []
  | .word pieces => some [.word pieces]
  | .name pieces letters false => some [.word (pieces ++ [.parameter letters false])]
  | .operator first => (single first).map fun token => [token]
  | _ => none

inductive Item where
  | word (word : Word)
  | redirect (number : List Char) (direction : Direction) (target : Word)
  deriving DecidableEq, Repr

/-- A simple command and what stands between it and the next one. -/
structure Command where
  items : List Item
  next : Connector
  deriving DecidableEq, Repr

inductive Event where
  | item (item : Item)
  | stop (connector : Connector)
  deriving DecidableEq, Repr

/-- What the grammar allows next: `operand` is the place after `&&`, `||` or a pipe. -/
inductive Expect where
  | start
  | operand
  | more
  | direction (number : List Char)
  | target (number : List Char) (direction : Direction)
  deriving DecidableEq, Repr

def reservedWords : List String :=
  ["if", "then", "else", "elif", "fi", "do", "done", "case", "esac", "while", "until", "for", "in",
    "\x7b", "\x7d", "!"]

def isReserved (word : Word) : Bool :=
  reservedWords.any fun text => (ascii text).map Piece.bare = word

def after : Connector → Expect
  | .sequence | .background => .start
  | .pipe | .andIf | .orIf => .operand

def accept : Expect → Token → Option (Expect × List Event)
  | .start, .word word | .operand, .word word =>
    if isReserved word then none else some (.more, [.item (.word word)])
  | .more, .word word => some (.more, [.item (.word word)])
  | .target number direction, .word word => some (.more, [.item (.redirect number direction word)])
  | .start, .number number | .operand, .number number | .more, .number number =>
    some (.direction number, [])
  | .start, .direction direction | .operand, .direction direction | .more, .direction direction =>
    some (.target [] direction, [])
  | .direction number, .direction direction => some (.target number direction, [])
  | .start, .newline => some (.start, [])
  | .operand, .newline => some (.operand, [])
  | .more, .newline => some (.start, [.stop .sequence])
  | .more, .control connector => some (after connector, [.stop connector])
  | _, _ => none

def acceptAll : Expect → List Token → Option (Expect × List Event)
  | expect, [] => some (expect, [])
  | expect, token :: rest =>
    match accept expect token with
    | none => none
    | some (next, events) => (acceptAll next rest).map fun (last, more) => (last, events ++ more)

structure State where
  mode : Mode
  expect : Expect
  deriving DecidableEq, Repr

def step (state : State) (c : Char) : Option (State × List Event) :=
  match lexStep state.mode c with
  | none => none
  | some (mode, tokens) =>
    (acceptAll state.expect tokens).map fun (expect, events) => (⟨mode, expect⟩, events)

def run : State → List Char → Option (State × List Event)
  | state, [] => some (state, [])
  | state, c :: rest =>
    match step state c with
    | none => none
    | some (next, events) => (run next rest).map fun (last, more) => (last, events ++ more)

def initial : State := ⟨.blank, .start⟩

def finish (state : State) : Option (List Event) :=
  match lexEnd state.mode with
  | none => none
  | some tokens =>
    match acceptAll state.expect tokens with
    | some (.start, events) => some events
    | some (.more, events) => some (events ++ [.stop .sequence])
    | _ => none

def group (items : List Item) : List Event → List Command
  | [] => []
  | .item item :: rest => group (items ++ [item]) rest
  | .stop connector :: rest => ⟨items, connector⟩ :: group [] rest

def parse (script : List Char) : Option (List Command) :=
  match run initial script with
  | none => none
  | some (state, events) => (finish state).map fun more => group [] (events ++ more)

/-- Unquoted characters are ordinary, and none that would mean something at the start of the word is
there. -/
structure Fair (word : Word) : Prop where
  ordinary : ∀ c, .bare c ∈ word → classify c = .ordinary
  head : ∀ c, word.head? = some (.bare c) → opensSpecially c = false

theorem fair_nil : Fair [] := ⟨by simp, by simp⟩

theorem Fair.concat {word : Word} (fair : Fair word) {piece : Piece} (ok : ∀ c, piece = .bare c →
      classify c = .ordinary ∧ (word = [] → opensSpecially c = false)) :
    Fair (word ++ [piece]) := by
  constructor
  · intro c mem
    rcases mem_append.mp mem with pre | last
    · exact fair.ordinary c pre
    · exact (ok c (mem_singleton.mp last).symm).1
  · intro c first
    cases word with
    | nil =>
      have eq : piece = .bare c := by simpa using first
      exact (ok c eq).2 rfl
    | cons other rest => exact fair.head c (by simpa using first)

theorem Fair.quoted {word : Word} (fair : Fair word) (c : Char) : Fair (word ++ [.quoted c]) :=
  fair.concat (by simp)

def Mode.Fair : Mode → Prop
  | .blank | .comment | .operator _ => True
  | .word pieces | .single pieces | .double pieces | .doubleEscape pieces | .dollar pieces _
  | .name pieces _ _ => Shell.Fair pieces
  | .escape started => Shell.Fair (started.getD [])

def Token.Fair : Token → Prop
  | .word pieces => Shell.Fair pieces
  | _ => True

variable {started : Option Word}

theorem ended_fair (fair : Fair (started.getD [])) : ∀ token ∈ ended started, token.Fair := by
  cases started with
  | none => simp [ended]
  | some pieces =>
    intro token mem
    cases mem_singleton.mp mem
    exact fair

theorem endedBefore_fair (fair : Fair (started.getD [])) (c : Char) :
    ∀ token ∈ endedBefore c started, token.Fair := by
  cases started with
  | none => simp [endedBefore]
  | some pieces =>
    intro token mem
    simp only [endedBefore] at mem
    split at mem
    · split at mem
      · cases mem_singleton.mp mem
        trivial
      · cases mem_singleton.mp mem
        exact fair
    · cases mem_singleton.mp mem
      exact fair

variable {c : Char}

theorem ordinary_fair (fair : Fair (started.getD [])) (plain : classify c = .ordinary) :
    (ordinary started c).Fair := by
  have bare (free : opensSpecially c = false) : Fair [.bare c] := by
    apply fair_nil.concat
    intro other eq
    cases eq
    exact ⟨plain, fun _ => free⟩
  rcases started with _ | _ | ⟨piece, pieces⟩
  · simp only [ordinary]
    split
    · trivial
    · split
      · exact fair_nil.concat (by simp)
      · next notHash notTilde => exact bare (by simp [opensSpecially, notHash, notTilde])
  · simp only [ordinary]
    split
    · exact fair_nil.quoted c
    · next free => exact bare (by simpa using free)
  · refine fair.concat ?_
    intro other eq
    cases eq
    exact ⟨plain, by simp⟩

variable {tokens : List Token}

theorem unquoted_fair (fair : Fair (started.getD [])) {mode : Mode}
    (read : unquoted started c = some (mode, tokens)) :
    mode.Fair ∧ ∀ token ∈ tokens, token.Fair := by
  have ends := ended_fair fair
  unfold unquoted at read
  split at read
  case h_1 =>
    cases read
    exact ⟨trivial, ends⟩
  case h_2 =>
    cases read
    refine ⟨trivial, ?_⟩
    intro token mem
    rcases mem_append.mp mem with pre | last
    · exact ends token pre
    · cases mem_singleton.mp last
      trivial
  case h_3 =>
    cases read
    exact ⟨trivial, endedBefore_fair fair c⟩
  case h_4 | h_5 | h_6 | h_7 =>
    cases read
    exact ⟨fair, by simp⟩
  case h_8 =>
    cases read
    exact ⟨fair.concat (by simp), by simp⟩
  case h_9 => cases read
  case h_10 plain =>
    cases read
    exact ⟨ordinary_fair fair plain, by simp⟩

theorem doubled_fair {pieces : Word} (fair : Fair pieces) {mode : Mode}
    (read : doubled pieces c = some (mode, tokens)) : mode.Fair ∧ ∀ token ∈ tokens, token.Fair := by
  unfold doubled at read
  split at read
  · cases read
    exact ⟨fair, by simp⟩
  split at read
  · cases read
    exact ⟨fair, by simp⟩
  split at read
  · cases read
    exact ⟨fair, by simp⟩
  split at read
  · cases read
  · cases read
    exact ⟨fair.quoted c, by simp⟩

theorem resume_fair {pieces : Word} (fair : Fair pieces) (inDouble : Bool) :
    (resume pieces inDouble).Fair := by
  cases inDouble <;> exact fair

theorem single_fair {first : Char} {token : Token} (read : single first = some token) :
    token.Fair := by
  unfold single at read
  split_ifs at read <;> (cases read; trivial)

theorem pair_fair {first snd : Char} {token : Token} (read : pair first snd = some token) :
    token.Fair := by
  unfold pair at read
  split_ifs at read <;> (cases read; trivial)

theorem lexStep_fair {mode next : Mode} (fair : mode.Fair)
    (read : lexStep mode c = some (next, tokens)) : next.Fair ∧ ∀ token ∈ tokens, token.Fair := by
  have nothing : Fair ((none : Option Word).getD []) := fair_nil
  cases mode with
  | blank => exact unquoted_fair nothing read
  | word pieces =>
    have continued : Fair ((some pieces).getD []) := fair
    exact unquoted_fair continued read
  | double pieces => exact doubled_fair fair read
  | comment =>
    simp only [lexStep] at read
    split at read
    · cases read
      exact ⟨trivial, by simp [Token.Fair]⟩
    · cases read
      exact ⟨trivial, by simp⟩
  | single pieces =>
    simp only [lexStep] at read
    split at read
    · cases read
      exact ⟨fair, by simp⟩
    · cases read
      exact ⟨fair.quoted c, by simp⟩
  | escape started =>
    simp only [lexStep] at read
    split at read
    · cases started with
      | none =>
        cases read
        exact ⟨trivial, by simp⟩
      | some pieces =>
        cases read
        exact ⟨fair, by simp⟩
    · cases read
      exact ⟨Fair.quoted fair c, by simp⟩
  | doubleEscape pieces =>
    simp only [lexStep] at read
    split at read
    · cases read
      exact ⟨Fair.quoted fair c, by simp⟩
    split at read
    · cases read
      exact ⟨fair, by simp⟩
    · cases read
      have both := (Fair.quoted fair '\\').quoted c
      rw [append_assoc] at both
      exact ⟨both, by simp⟩
  | dollar pieces inDouble =>
    simp only [lexStep] at read
    split at read
    · cases read
      exact ⟨resume_fair (Fair.concat fair (by simp)) inDouble, by simp⟩
    split at read
    · cases read
      exact ⟨fair, by simp⟩
    · cases read
  | name pieces letters inDouble =>
    have extended (quoted : Bool) : Fair ((some (pieces ++ [.parameter letters quoted])).getD []) :=
      Fair.concat fair (by simp)
    simp only [lexStep] at read
    split at read
    · cases read
      exact ⟨fair, by simp⟩
    split at read
    · exact doubled_fair (extended true) read
    · exact unquoted_fair (extended false) read
  | operator first =>
    simp only [lexStep] at read
    split at read
    · cases read
    split at read
    · next token both =>
      cases read
      refine ⟨trivial, ?_⟩
      intro other mem
      cases mem_singleton.mp mem
      exact pair_fair both
    · split at read
      · next token mode more alone rest =>
        cases read
        have follows := unquoted_fair nothing rest
        refine ⟨follows.1, ?_⟩
        intro other mem
        rcases mem_cons.mp mem with rfl | later
        · exact single_fair alone
        · exact follows.2 other later
      · cases read

/-- The word of an item, which for a redirection is its target. -/
def Item.text : Item → Word
  | .word pieces => pieces
  | .redirect _ _ target => target

def Event.Fair : Event → Prop
  | .item read => Shell.Fair read.text
  | .stop _ => True

variable {events : List Event}

theorem accept_fair {expect next : Expect} {token : Token} (fair : token.Fair)
    (read : accept expect token = some (next, events)) : ∀ event ∈ events, event.Fair := by
  unfold accept at read
  split at read
  case h_1 | h_2 =>
    split at read
    · cases read
    · cases read
      intro event mem
      cases mem_singleton.mp mem
      exact fair
  case h_3 | h_4 =>
    cases read
    intro event mem
    cases mem_singleton.mp mem
    exact fair
  all_goals
    cases read
    try simp [Event.Fair]

theorem acceptAll_fair {expect next : Expect} (fair : ∀ token ∈ tokens, token.Fair)
    (read : acceptAll expect tokens = some (next, events)) : ∀ event ∈ events, event.Fair := by
  induction tokens generalizing expect next events with
  | nil =>
    cases read
    simp
  | cons token rest ih =>
    simp only [acceptAll] at read
    split at read
    · cases read
    · next mid first ok =>
      obtain ⟨⟨last, more⟩, later, eq⟩ := map_eq_some_iff.mp read
      cases eq
      intro event mem
      rcases mem_append.mp mem with now | after
      · exact accept_fair (fair token (.head _)) ok event now
      · exact ih (fun other seen => fair other (.tail _ seen)) later event after

theorem step_fair {state next : State} (fair : state.mode.Fair)
    (read : step state c = some (next, events)) :
    next.mode.Fair ∧ ∀ event ∈ events, event.Fair := by
  simp only [step] at read
  split at read
  · cases read
  · next mode tokens lexed =>
    obtain ⟨⟨expect, ok⟩, got, eq⟩ := map_eq_some_iff.mp read
    cases eq
    have both := lexStep_fair fair lexed
    exact ⟨both.1, acceptAll_fair both.2 got⟩

theorem run_fair {state last : State} (fair : state.mode.Fair) {text : List Char}
    (read : run state text = some (last, events)) :
    last.mode.Fair ∧ ∀ event ∈ events, event.Fair := by
  induction text generalizing state events with
  | nil =>
    cases read
    exact ⟨fair, by simp⟩
  | cons c rest ih =>
    simp only [run] at read
    split at read
    · cases read
    · next next now stepped =>
      obtain ⟨⟨final, more⟩, later, eq⟩ := map_eq_some_iff.mp read
      cases eq
      have first := step_fair fair stepped
      have snd := ih first.1 later
      refine ⟨snd.1, ?_⟩
      intro event mem
      rcases mem_append.mp mem with early | late
      · exact first.2 event early
      · exact snd.2 event late

theorem lexEnd_fair {mode : Mode} (fair : mode.Fair) (read : lexEnd mode = some tokens) :
    ∀ token ∈ tokens, token.Fair := by
  unfold lexEnd at read
  split at read
  case h_1 | h_2 =>
    cases read
    simp
  case h_3 =>
    cases read
    intro token mem
    cases mem_singleton.mp mem
    exact fair
  case h_4 pieces letters =>
    cases read
    have extended : Fair (pieces ++ [.parameter letters false]) := Fair.concat fair (by simp)
    simpa [Token.Fair] using extended
  case h_5 first =>
    obtain ⟨token, alone, eq⟩ := map_eq_some_iff.mp read
    cases eq
    simpa using single_fair alone
  case h_6 => cases read

theorem finish_fair {state : State} (fair : state.mode.Fair)
    (read : finish state = some events) : ∀ event ∈ events, event.Fair := by
  simp only [finish] at read
  split at read
  · cases read
  · next tokens lexed =>
    have tokensFair := lexEnd_fair fair lexed
    split at read
    · next ok =>
      cases read
      exact acceptAll_fair tokensFair ok
    · next got ok =>
      cases read
      intro event mem
      rcases mem_append.mp mem with early | last
      · exact acceptAll_fair tokensFair ok event early
      · cases mem_singleton.mp last
        trivial
    · cases read

theorem group_fair {items : List Item} (fair : ∀ item ∈ items, Fair item.text)
    (fairEvents : ∀ event ∈ events, event.Fair) :
    ∀ cmd ∈ group items events, ∀ item ∈ cmd.items, Fair item.text := by
  induction events generalizing items with
  | nil => simp [group]
  | cons event rest ih =>
    have later : ∀ event ∈ rest, event.Fair := fun other listed =>
      fairEvents other (.tail _ listed)
    cases event with
    | item read =>
      apply ih _ later
      intro item mem
      rcases mem_append.mp mem with early | last
      · exact fair item early
      · cases mem_singleton.mp last
        exact fairEvents _ (.head _)
    | stop connector =>
      intro cmd mem
      rcases mem_cons.mp mem with rfl | listed
      · exact fair
      · exact ih (by simp) later cmd listed

theorem parse_fair {script : List Char} {commands : List Command}
    (read : parse script = some commands) :
    ∀ cmd ∈ commands, ∀ item ∈ cmd.items, Fair item.text := by
  simp only [parse] at read
  split at read
  · cases read
  · next state events ran =>
    obtain ⟨more, finished, eq⟩ := map_eq_some_iff.mp read
    cases eq
    have start : initial.mode.Fair := trivial
    have ranFair := run_fair start ran
    apply group_fair (by simp)
    intro event mem
    rcases mem_append.mp mem with early | last
    · exact ranFair.2 event early
    · exact finish_fair ranFair.1 finished event last

end Infrastructure.Shell
