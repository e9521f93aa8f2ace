import Mathlib.Data.List.AList
import Infrastructure.Net.Address
import Infrastructure.Net.Escape
import Infrastructure.Text.Words

/-! Packet filters in the manner of iptables: rules as the arguments they are given in, tables of
chains, the commands that change them, and what a chain does with a packet. -/

namespace Infrastructure.Net.Iptables

open List Option

inductive Transport where
  | tcp
  | udp
  | icmp
  | other (n : Nat)
  deriving DecidableEq, Repr

/-- The state of the connection that a packet belongs to. -/
inductive Tracking where
  | new
  | established
  | related
  | invalid
  deriving DecidableEq, Repr

/-- What rules ask about a packet; `mark` is its connection's, and `exceeds` has the rate limits
that its source is above. -/
structure Packet where
  source : IP
  destination : IP
  transport : Transport
  port : Option Nat := none
  inward : String := ""
  outward : String := ""
  tracking : Tracking := .new
  mark : Nat := 0
  payload : String := ""
  exceeds : List (String × String) := []
  deriving DecidableEq, Repr

inductive Condition where
  | source (block : IPNet)
  | destination (block : IPNet)
  | transport (kind : Transport)
  | port (n : Nat)
  | tracking (states : List Tracking)
  | mark (value : Nat)
  | inward (name : String)
  | outward (name : String)
  | notInward (name : String)
  | content (text : String)
  /-- A limit that is counted under the name that follows it. -/
  | limit (rate : String)
  | above (name rate : String)
  deriving DecidableEq, Repr

def Condition.holds (pkt : Packet) : Condition → Bool
  | .source block => block.contains pkt.source
  | .destination block => block.contains pkt.destination
  | .transport kind => pkt.transport == kind
  | .port n => pkt.port == some n
  | .tracking states => states.contains pkt.tracking
  | .mark value => pkt.mark == value
  | .inward name => pkt.inward == name
  | .outward name => pkt.outward == name
  | .notInward name => pkt.inward != name
  | .content text => decide (text.toList <:+: pkt.payload.toList)
  | .limit _ => true
  | .above name rate => pkt.exceeds.contains (name, rate)

inductive Target where
  | accept
  | drop
  | reject (reply : String)
  | back
  | masquerade
  | dnat (address : String)
  | jump (chain : String)
  | log (lead : String)
  | mark (value : Nat)
  | connmark (value : Nat)
  deriving DecidableEq, Repr

/-- The target decides about a packet. -/
def Target.final : Target → Bool
  | .accept | .drop | .reject _ | .masquerade | .dnat _ => true
  | .back | .jump _ | .log _ | .mark _ | .connmark _ => false

structure Rule where
  conditions : List Condition
  target : Target
  deriving DecidableEq, Repr

def Rule.matches (rule : Rule) (pkt : Packet) : Bool := rule.conditions.all (·.holds pkt)

section

def transportOf (text : String) : Option Transport :=
  if text = "tcp" then some .tcp
  else if text = "udp" then some .udp
  else if text = "icmp" then some .icmp
  else none

def trackingOf (text : List Char) : Option Tracking :=
  if text = "NEW".toList then some .new
  else if text = "ESTABLISHED".toList then some .established
  else if text = "RELATED".toList then some .related
  else if text = "INVALID".toList then some .invalid
  else none

def portOf (text : String) : Option Nat := (Text.atoi text.toList).map Int.toNat

def readHex (digits : List Char) : Option Nat :=
  digits.foldlM (fun value digit => (unhex digit).map (16 * value + ·)) 0

def markOf (text : String) : Option Nat :=
  match text.toList with
  | '0' :: 'x' :: digits => readHex digits
  | _ => none

def targetOf : List String → Option Target
  | [name] => some (
      if name = "ACCEPT" then .accept
      else if name = "DROP" then .drop
      else if name = "RETURN" then .back
      else if name = "MASQUERADE" then .masquerade
      else .jump name)
  | [name, flag, value] =>
    if name = "REJECT" ∧ flag = "--reject-with" then some (.reject value)
    else if name = "DNAT" ∧ flag = "--to-destination" then some (.dnat value)
    else if name = "LOG" ∧ flag = "--log-prefix" then some (.log value)
    else if name = "MARK" ∧ flag = "--set-mark" then (markOf value).map .mark
    else if name = "CONNMARK" ∧ flag = "--set-mark" then (markOf value).map .connmark
    else none
  | _ => none

variable (block : String → Option IPNet)

/-- The limit that is still to be named. -/
def rateOf (pre : List Condition) : Option String :=
  pre.findSome? fun cond =>
    match cond with
    | .limit rate => some rate
    | _ => none

def conditionsOf (pre : List Condition) (flag value : String) : Option (List Condition) :=
  if flag = "-s" then (block value).map fun found => [.source found]
  else if flag = "-d" then (block value).map fun found => [.destination found]
  else if flag = "-p" then (transportOf value).map fun kind => [.transport kind]
  else if flag = "-i" then some [.inward value]
  else if flag = "-o" then some [.outward value]
  else if flag = "-m" then some []
  else if flag = "--dport" then
    if .transport .tcp ∈ pre ∨ .transport .udp ∈ pre then (portOf value).map fun n => [.port n]
    else none
  else if flag = "--ctstate" then
    ((value.toList.splitOn ',').mapM trackingOf).map fun states => [.tracking states]
  else if flag = "--mark" then (markOf value).map fun n => [.mark n]
  else if flag = "--algo" then some []
  else if flag = "--string" then some [.content value]
  else if flag = "--hashlimit-above" then some [.limit value]
  else if flag = "--hashlimit-mode" then some []
  else if flag = "--hashlimit-name" then (rateOf pre).map fun rate => [.above value rate]
  else none

/-- The rule that arguments describe, after those that ask for the earlier conditions. -/
def parse (pre : List Condition) : List String → Option Rule
  | flag :: value :: rest =>
    if flag = "-j" then (targetOf (value :: rest)).map fun target => ⟨pre, target⟩
    else if flag = "!" then
      match rest with
      | name :: rest => if value = "-i" then parse (pre ++ [.notInward name]) rest else none
      | [] => none
    else
      match conditionsOf block pre flag value with
      | none => none
      | some more => parse (pre ++ more) rest
  | _ => none

/-- The flag is neither that of the target nor that of a negation. -/
abbrev Plain (flag : String) : Prop := flag ≠ "-j" ∧ flag ≠ "!"

theorem parse_cons (pre : List Condition) (flag value : String) (rest : List String) :
    parse block pre (flag :: value :: rest) =
      if flag = "-j" then (targetOf (value :: rest)).map fun target =>
        ⟨pre, target⟩ else if flag = "!" then
        match rest with
        | name :: rest => if value = "-i" then parse block (pre ++ [.notInward name]) rest else none
        | [] => none else
        match conditionsOf block pre flag value with
        | none => none
        | some more => parse block (pre ++ more) rest := by
  cases rest <;> rfl

variable {pre : List Condition} {rest : List String}

theorem parse_target {name : String} {target : Target}
    (named : targetOf (name :: rest) = some target) :
    parse block pre ("-j" :: name :: rest) = some ⟨pre, target⟩ := by
  rw [parse_cons, if_pos rfl, named, map_some]

theorem parse_option {pre more : List Condition} {flag value : String} (other : Plain flag)
    (asked : conditionsOf block pre flag value = some more) :
    parse block pre (flag :: value :: rest) = parse block (pre ++ more) rest := by
  rw [parse_cons, if_neg other.1, if_neg other.2, asked]

theorem parse_option_none {flag value : String} (other : Plain flag)
    (denied : conditionsOf block pre flag value = none) :
    parse block pre (flag :: value :: rest) = none := by
  rw [parse_cons, if_neg other.1, if_neg other.2, denied]

theorem parse_transport {text : String} {kind : Transport} (named : transportOf text = some kind) :
    parse block pre ("-p" :: text :: rest) = parse block (pre ++ [.transport kind]) rest :=
  parse_option _ (by decide) (by simp [conditionsOf, named])

theorem parse_module {text : String} :
    parse block pre ("-m" :: text :: rest) = parse block pre rest := by
  rw [parse_option block (by decide) (show conditionsOf block pre "-m" text = some [] from rfl),
    append_nil]

theorem parse_port {text : String} {n : Nat}
    (ported : .transport .tcp ∈ pre ∨ .transport .udp ∈ pre) (named : portOf text = some n) :
    parse block pre ("--dport" :: text :: rest) = parse block (pre ++ [.port n]) rest :=
  parse_option _ (by decide) (by simp [conditionsOf, ported, named])

theorem parse_earlier {args : List String} {rule : Rule}
    (got : parse block pre args = some rule) : ∀ cond ∈ pre, cond ∈ rule.conditions := by
  fun_induction parse block pre args with
  | case1 pre value rest =>
    obtain ⟨target, -, eq⟩ := map_eq_some_iff.mp got
    intro cond mem
    rw [← eq]
    exact mem
  | case3 | case4 | case5 | case7 => cases got
  | case2 pre name rest _ ih | case6 pre flag value rest _ _ more _ ih =>
    intro cond mem
    exact ih got cond (mem_append_left _ mem)

theorem readHex_toDigits (value : Nat) : readHex (Nat.toDigits 16 value) = some value := by
  have digit : ∀ n < 16, unhex (Nat.digitChar n) = some n := by decide
  induction value using Nat.strongRecOn with
  | ind value ih =>
    by_cases small : value < 16
    · simp [readHex, Nat.toDigits_of_lt_base small, digit value small]
    · have rest := ih (value / 16) (by omega)
      have whole : 16 * (value / 16) + value % 16 = value := by omega
      rw [readHex] at rest
      rw [readHex, Nat.toDigits_of_base_le (by decide) (by omega), foldlM_append, rest]
      simp [digit (value % 16) (by omega), whole]

theorem markOf_hex (value : Nat) :
    markOf ("0x" ++ String.ofList (Nat.toDigits 16 value)) = some value := by
  have text : ("0x" ++ String.ofList (Nat.toDigits 16 value)).toList =
      '0' :: 'x' :: Nat.toDigits 16 value := by simp
  rw [markOf, text]
  exact readHex_toDigits value

theorem portOf_toString {port : Int} (low : 0 ≤ port) (high : port ≤ 65535) :
    portOf (toString port) = some port.toNat := by
  obtain ⟨n, rfl⟩ := Int.eq_ofNat_of_zero_le low
  have digits : toString (n : Int) = toString n := rfl
  have text : (toString (n : Int)).toList = Nat.toDigits 10 n := by
    rw [digits]
    simp
  rw [portOf, text, Text.atoi_toDigits (by omega)]
  rfl

end

/-- A rule as the arguments that it was given in. -/
abbrev Spec := List String

abbrev Chains := AList fun _ : String => List Spec

structure Tables where
  chains : String → Chains

namespace Tables

variable (tables : Tables)

def rules (table chain : String) : Option (List Spec) := (tables.chains table).lookup chain

def set (table chain : String) (specs : List Spec) : Tables :=
  ⟨Function.update tables.chains table ((tables.chains table).insert chain specs)⟩

def remove (table chain : String) : Tables :=
  ⟨Function.update tables.chains table ((tables.chains table).erase chain)⟩

@[simp] theorem rules_set_self (table chain : String) (specs : List Spec) :
    (tables.set table chain specs).rules table chain = some specs := by
  simp [rules, set]

theorem rules_set_of_ne {table chain table' chain' : String} (specs : List Spec)
    (ne : table' = table → chain' ≠ chain) :
    (tables.set table chain specs).rules table' chain' = tables.rules table' chain' := by
  by_cases eq : table' = table
  · subst eq
    simp [rules, set, AList.lookup_insert_ne (ne rfl)]
  · simp [rules, set, eq]

theorem rules_remove_of_ne {table chain table' chain' : String}
    (ne : table' = table → chain' ≠ chain) :
    (tables.remove table chain).rules table' chain' = tables.rules table' chain' := by
  by_cases eq : table' = table
  · subst eq
    simp [rules, remove, AList.lookup_erase_ne (ne rfl)]
  · simp [rules, remove, eq]

end Tables

inductive Command where
  | create (chain : String)
  | flush (chain : String)
  | append (chain : String) (spec : Spec)
  /-- Puts the rule first. -/
  | insert (chain : String) (spec : Spec)
  | check (chain : String) (spec : Spec)
  | delete (chain : String) (spec : Spec)
  | erase (chain : String)
  | print (chain : String)
  | printAll
  deriving DecidableEq, Repr

def commandOf : List String → Option Command
  | [flag] => if flag = "-S" then some .printAll else none
  | flag :: chain :: rest =>
    if flag = "-A" then some (.append chain rest)
    else if flag = "-C" then some (.check chain rest)
    else if flag = "-D" then some (.delete chain rest)
    else if flag = "-I" then
      match rest with
      | "1" :: spec => some (.insert chain spec)
      | _ => none
    else if rest = [] then
      if flag = "-N" then some (.create chain)
      else if flag = "-F" then some (.flush chain)
      else if flag = "-X" then some (.erase chain)
      else if flag = "-S" then some (.print chain)
      else none
    else none
  | [] => none

/-- The table that a command is about, and the command. -/
def tableOf : List String → String × List String
  | flag :: table :: rest =>
    if flag = "-t" then (table, rest) else ("filter", flag :: table :: rest)
  | words => ("filter", words)

section

variable (block : String → Option IPNet)

/-- The rule can be read, and the chain that it jumps to is there. -/
def acceptable (chains : Chains) (spec : Spec) : Bool :=
  match parse block [] spec with
  | none => false
  | some ⟨_, .jump chain⟩ => (chains.lookup chain).isSome
  | some _ => true

def jumpsTo (chain : String) (spec : Spec) : Bool :=
  match parse block [] spec with
  | some ⟨_, .jump target⟩ => target == chain
  | _ => false

def builtIn : List String := ["INPUT", "FORWARD", "OUTPUT", "PREROUTING", "POSTROUTING"]

def heading (chain : String) : String :=
  if chain ∈ builtIn then "-P " ++ chain ++ " ACCEPT" else "-N " ++ chain

def line (chain : String) (spec : Spec) : String := "-A " ++ chain ++ " " ++ " ".intercalate spec

/-- The lines that a command prints, each with its end. -/
def textOf (lines : List String) : String := String.join (lines.map fun text => text ++ "\n")

/-- What a command that the tables admit prints and does. -/
def Command.perform (tables : Tables) (table : String) : Command → Option (String × Tables)
  | .create chain =>
    if (tables.rules table chain).isSome then none else some ("", tables.set table chain [])
  | .flush chain => (tables.rules table chain).map fun _ => ("", tables.set table chain [])
  | .append chain spec =>
    match tables.rules table chain with
    | some specs =>
      if acceptable block (tables.chains table) spec then
        some ("", tables.set table chain (specs ++ [spec]))
      else none
    | none => none
  | .insert chain spec =>
    match tables.rules table chain with
    | some specs =>
      if acceptable block (tables.chains table) spec then
        some ("", tables.set table chain (spec :: specs))
      else none
    | none => none
  | .check chain spec =>
    if spec ∈ (tables.rules table chain).getD [] then some ("", tables) else none
  | .delete chain spec =>
    match tables.rules table chain with
    | some specs =>
      if spec ∈ specs then some ("", tables.set table chain (specs.erase spec)) else none
    | none => none
  | .erase chain =>
    if tables.rules table chain = some [] ∧
        (tables.chains table).entries.all
          (fun entry => entry.2.all fun spec => !jumpsTo block chain spec) then
      some ("", tables.remove table chain)
    else none
  | .print chain =>
    (tables.rules table chain).map fun specs =>
      (textOf (heading chain :: specs.map (line chain)), tables)
  | .printAll =>
    let chains := (tables.chains table).entries
    some (textOf (chains.map (fun entry => heading entry.1) ++
      chains.flatMap fun entry => entry.2.map (line entry.1)), tables)

def perform (tables : Tables) (words : List String) : Option (String × Tables) :=
  match commandOf (tableOf words).2 with
  | none => none
  | some cmd => cmd.perform block tables (tableOf words).1

variable {cmd : Command}

theorem perform_of {tables : Tables} {words : List String} {table : String} {rest : List String}
    (about : tableOf words = (table, rest)) (names : commandOf rest = some cmd) :
    perform block tables words = cmd.perform block tables table := by
  rw [perform, about, names]

variable {tables s' : Tables} {table chain text : String} {spec : Spec} {specs : List Spec}

theorem perform_append
    (done : (Command.append chain spec).perform block tables table = some (text, s'))
    (held : tables.rules table chain = some specs) :
    acceptable block (tables.chains table) spec = true ∧
      s' = tables.set table chain (specs ++ [spec]) := by
  rw [Command.perform, held] at done
  dsimp only at done
  split at done
  · next good =>
    cases done
    exact ⟨good, rfl⟩
  · cases done

theorem perform_insert
    (done : (Command.insert chain spec).perform block tables table = some (text, s'))
    (held : tables.rules table chain = some specs) :
    s' = tables.set table chain (spec :: specs) := by
  rw [Command.perform, held] at done
  dsimp only at done
  split at done
  · cases done
    rfl
  · cases done

theorem perform_delete
    (done : (Command.delete chain spec).perform block tables table = some (text, s'))
    (held : tables.rules table chain = some specs) :
    s' = tables.set table chain (specs.erase spec) := by
  rw [Command.perform, held] at done
  dsimp only at done
  split at done
  · cases done
    rfl
  · cases done

theorem perform_create
    (done : (Command.create chain).perform block tables table = some (text, s')) :
    tables.rules table chain = none ∧ s' = tables.set table chain [] := by
  rw [Command.perform] at done
  split at done
  · cases done
  · next gone =>
    cases done
    exact ⟨by simpa using gone, rfl⟩

theorem perform_print (done : (Command.print chain).perform block tables table = some (text, s')) :
    ∃ specs, tables.rules table chain = some specs ∧
      text = textOf (heading chain :: specs.map (line chain)) ∧
      s' = tables := by
  obtain ⟨specs, has, eq⟩ := map_eq_some_iff.mp done
  cases eq
  exact ⟨specs, has, rfl, rfl⟩

theorem perform_flush (done : (Command.flush chain).perform block tables table = some (text, s')) :
    s' = tables.set table chain [] := by
  obtain ⟨specs, -, eq⟩ := map_eq_some_iff.mp done
  cases eq
  rfl

theorem parse_of_acceptable {chains : Chains} (good : acceptable block chains spec = true) :
    ∃ rule, parse block [] spec = some rule := by
  rw [acceptable] at good
  split at good
  · cases good
  · exact ⟨_, by assumption⟩
  · exact ⟨_, by assumption⟩

/-- The command may change what the chain holds. -/
def Command.writes (chain : String) : Command → Bool
  | .create other | .flush other | .append other _ | .insert other _ | .delete other _
  | .erase other => other == chain
  | .check _ _ | .print _ | .printAll => false

/-- A command leaves the other tables alone, and the chains that it does not write to. -/
theorem perform_frame (done : cmd.perform block tables table = some (text, s'))
    {table' chain' : String} (other : table' = table → cmd.writes chain' = false) :
    s'.rules table' chain' = tables.rules table' chain' := by
  have kept (chain : String) (specs : List Spec)
      (apart : table' = table → (chain == chain') = false) :
      (tables.set table chain specs).rules table' chain' = tables.rules table' chain' :=
    tables.rules_set_of_ne specs fun eq => (beq_eq_false_iff_ne.mp (apart eq)).symm
  cases cmd with
  | create chain =>
    rw [Command.perform] at done
    split at done <;> cases done
    exact kept chain _ other
  | flush chain =>
    rw [perform_flush block done]
    exact kept chain _ other
  | append chain spec | insert chain spec | delete chain spec =>
    rw [Command.perform] at done
    split at done
    · split at done <;> cases done
      exact kept chain _ other
    · cases done
  | check chain spec =>
    rw [Command.perform] at done
    split at done <;> cases done
    rfl
  | erase chain =>
    rw [Command.perform] at done
    split at done <;> cases done
    exact tables.rules_remove_of_ne fun eq => (beq_eq_false_iff_ne.mp (other eq)).symm
  | print chain =>
    obtain ⟨specs, -, eq⟩ := map_eq_some_iff.mp done
    cases eq
    rfl
  | printAll =>
    cases done
    rfl

/-- What may come of a command: one that reports an error may still have taken effect. -/
def Performs {ε : Type} (s : Tables) (words : List String) (reply : Except ε String)
    (s' : Tables) : Prop :=
  match reply with
  | .ok text => perform block s words = some (text, s')
  | .error _ => s' = s ∨ ∃ text, perform block s words = some (text, s')

variable {block} {ε : Type} {s s' : Tables} {words : List String} {reply : Except ε String}

theorem Performs.frame {rest : List String} (about : tableOf words = (table, rest))
    (names : commandOf rest = some cmd) (performs : Performs block s words reply s')
    {table' chain' : String} (other : table' = table → cmd.writes chain' = false) :
    s'.rules table' chain' = s.rules table' chain' := by
  have done {text : String} (ran : perform block s words = some (text, s')) :
      s'.rules table' chain' = s.rules table' chain' := by
    rw [perform_of block about names] at ran
    exact perform_frame block ran other
  cases reply with
  | ok text => exact done performs
  | error err =>
    rcases performs with eq | ⟨text, ran⟩
    · rw [eq]
    · exact done ran

theorem Performs.cases (performs : Performs block s words reply s') :
    s' = s ∨ ∃ text, perform block s words = some (text, s') := by
  cases reply with
  | ok text => exact .inr ⟨text, performs⟩
  | error err => exact performs

end

section

/-- Arguments that are printed as their words. -/
def Worded (spec : Spec) : Prop := spec ≠ [] ∧ ∀ word ∈ spec, Text.Solid word.toList

instance (spec : Spec) : Decidable (Worded spec) := inferInstanceAs (Decidable (_ ∧ _))

/-- A rule as a table holds it: it can be read, and is printed as its words. -/
structure Held (block : String → Option IPNet) (spec : Spec) : Prop where
  read : ∃ rule, parse block [] spec = some rule
  worded : Worded spec

theorem toList_textOf (lines : List String) :
    (textOf lines).toList = (lines.map String.toList).flatMap fun text => text ++ ['\n'] := by
  rw [textOf, String.toList_join, flatMap_map, flatMap_map]
  congr 1
  funext text
  exact String.toList_append

def lineWords (chain : String) (spec : Spec) : List (List Char) :=
  ("-A" :: chain :: spec).map String.toList

variable {chain : String}

theorem toList_line {spec : Spec} (ne : spec ≠ []) :
    (line chain spec).toList = Text.sentence (lineWords chain spec) := by
  obtain ⟨first, rest, rfl⟩ := exists_cons_of_ne_nil ne
  rw [lineWords, map_cons, map_cons, map_cons, Text.sentence_cons, Text.sentence_cons,
    Text.sentence, line]
  simp

section

variable (named : Text.Solid chain.toList)

include named

theorem solid_lineWords {spec : Spec} (worded : Worded spec) :
    ∀ word ∈ lineWords chain spec, Text.Solid word := by
  intro word mem
  obtain ⟨text, listed, rfl⟩ := mem_map.mp mem
  rcases mem_cons.mp listed with rfl | listed
  · decide
  rcases mem_cons.mp listed with rfl | listed
  · exact named
  · exact worded.2 text listed

theorem line_heading : Text.Line (heading chain).toList := by
  have solid (words : List (List Char)) (each : ∀ word ∈ words, Text.Solid word)
      (ne : words ≠ []) :=
    Text.line_sentence ne each
  rw [heading]
  split
  · have shape : ("-P " ++ chain ++ " ACCEPT").toList = Text.sentence ["-P".toList, chain.toList,
        "ACCEPT".toList] := by
      rw [Text.sentence_cons, Text.sentence_cons, Text.sentence]
      simp
    rw [shape]
    exact solid _ (by simp [named]; decide) (by simp)
  · have shape : ("-N " ++ chain).toList = Text.sentence ["-N".toList, chain.toList] := by
      rw [Text.sentence_cons, Text.sentence]
      simp
    rw [shape]
    exact solid _ (by simp [named]; decide) (by simp)

theorem splitOn_print {specs : List Spec} (worded : ∀ spec ∈ specs, Worded spec) :
    (Text.trimSpace (textOf (heading chain :: specs.map (line chain))).toList).splitOn '\n' =
      (heading chain :: specs.map (line chain)).map String.toList := by
  rw [toList_textOf]
  apply Text.splitOn_trimSpace (by simp)
  intro text mem
  obtain ⟨printed, listed, rfl⟩ := mem_map.mp mem
  rcases mem_cons.mp listed with rfl | listed
  · exact line_heading named
  · obtain ⟨spec, within, rfl⟩ := mem_map.mp listed
    rw [toList_line (worded spec within).1]
    exact Text.line_sentence (by simp [lineWords]) (solid_lineWords named (worded spec within))

theorem line_inj {first snd : Spec} (left : Worded first)
    (right : Worded snd) (eq : line chain first = line chain snd) : first = snd := by
  have sentences := congrArg String.toList eq
  rw [toList_line left.1, toList_line right.1] at sentences
  have words : lineWords chain first = lineWords chain snd := by
    rw [← Text.fields_sentence (solid_lineWords named left), sentences,
      Text.fields_sentence (solid_lineWords named right)]
  have texts : "-A" :: chain :: first = "-A" :: chain :: snd :=
    map_injective_iff.mpr (fun _ _ => String.toList_inj.mp) words
  exact (List.cons.inj (List.cons.inj texts).2).2

theorem lines_inj {first snd : List Spec} (left : ∀ spec ∈ first, Worded spec)
    (right : ∀ spec ∈ snd, Worded spec)
    (eq : first.map (line chain) = snd.map (line chain)) : first = snd := by
  induction first generalizing snd with
  | nil => exact (map_eq_nil_iff.mp eq.symm).symm
  | cons spec first ih =>
    cases snd with
    | nil => cases eq
    | cons other snd =>
      obtain ⟨head, tail⟩ := List.cons.inj eq
      rw [forall_mem_cons] at left right
      rw [line_inj named left.1 right.1 head, ih left.2 right.2 tail]

end

end

section

variable (block : String → Option IPNet)

/-- The first rule that matches decides, unless it jumps to a chain that does not, logs or marks.
Marks are not followed. -/
def verdict (jump : String → Option Target) (pkt : Packet) : List Spec → Option Target
  | [] => none
  | spec :: rest =>
    match parse block [] spec with
    | none => verdict jump pkt rest
    | some rule =>
      if rule.matches pkt then
        match rule.target with
        | .back => none
        | .jump chain =>
          match jump chain with
          | some target => some target
          | none => verdict jump pkt rest
        | .log _ | .mark _ | .connmark _ => verdict jump pkt rest
        | target => some target
      else verdict jump pkt rest

/-- What the rules do with a packet, down to a depth of jumps. -/
def walk (chains : Chains) (pkt : Packet) : Nat → List Spec → Option Target
  | 0, specs => verdict block (fun _ => none) pkt specs
  | depth + 1, specs =>
    verdict block (fun chain => walk chains pkt depth ((chains.lookup chain).getD [])) pkt specs

/-- What a chain does with a packet: no chain is entered twice on the way. -/
def Tables.treat (tables : Tables) (table chain : String) (pkt : Packet) : Option Target :=
  walk block (tables.chains table) pkt (tables.chains table).entries.length
    ((tables.rules table chain).getD [])

/-- The rule can be read and matches the packet. -/
def admits (pkt : Packet) (spec : Spec) : Bool :=
  match parse block [] spec with
  | some rule => rule.matches pkt
  | none => false

variable {block} {jump : String → Option Target} {pkt : Packet} {rest : List Spec}

theorem verdict_skip {spec : Spec} (passes : admits block pkt spec = false) :
    verdict block jump pkt (spec :: rest) = verdict block jump pkt rest := by
  rw [admits] at passes
  rw [verdict]
  split
  · rfl
  · next rule got =>
    rw [got] at passes
    rw [if_neg (by simp [passes])]

theorem verdict_match {spec : Spec} {rule : Rule} (got : parse block [] spec = some rule)
    (fit : rule.matches pkt = true) (final : rule.target.final = true) :
    verdict block jump pkt (spec :: rest) = some rule.target := by
  rw [verdict, got]
  dsimp only
  rw [if_pos fit]
  cases target : rule.target with
  | accept | drop | reject | masquerade | dnat => rfl
  | back | jump | log | mark | connmark =>
    rw [target] at final
    cases final

theorem verdict_jump {spec : Spec} {conditions : List Condition} {chain : String} {target : Target}
    (got : parse block [] spec = some ⟨conditions, .jump chain⟩)
    (fit : conditions.all (·.holds pkt) = true)
    (decides : jump chain = some target) : verdict block jump pkt (spec :: rest) = some target := by
  rw [verdict, got]
  dsimp only
  rw [if_pos (show (Rule.mk conditions (.jump chain)).matches pkt = true from fit), decides]

theorem verdict_accepts {specs rest : List Spec}
    (accepts : ∀ spec ∈ specs, ∃ rule, parse block [] spec = some rule ∧ rule.target = .accept) :
    verdict block jump pkt (specs ++ rest) =
      if specs.any (admits block pkt) then some .accept else verdict block jump pkt rest := by
  induction specs with
  | nil => rfl
  | cons spec specs ih =>
    have ih := ih fun other mem => accepts other (.tail _ mem)
    obtain ⟨rule, got, accept⟩ := accepts spec (.head _)
    rw [cons_append, any_cons]
    cases matching : admits block pkt spec with
    | false => rw [verdict_skip matching, ih, Bool.false_or]
    | true =>
      rw [admits, got] at matching
      rw [Bool.true_or, if_pos rfl, verdict_match got matching (by rw [accept]; rfl), accept]

variable (block pkt) in
theorem walk_eq_verdict (chains : Chains) (depth : Nat) (specs : List Spec) :
    ∃ jump, walk block chains pkt depth specs = verdict block jump pkt specs := by
  cases depth <;> exact ⟨_, rfl⟩

end

end Infrastructure.Net.Iptables
