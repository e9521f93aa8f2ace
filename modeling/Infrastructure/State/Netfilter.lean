import Infrastructure.Net.Iptables
import Infrastructure.State.Logged

/-! The store together with the packet filter of a host, which agents change by the iptables
commands that they run. -/

namespace Infrastructure.State

open Concurrency Net Iptables

/-- The store, the commands run so far and the packet filter. -/
structure Host where
  logged : Logged
  tables : Tables

abbrev Host.shared (host : Host) : Shared := host.logged.shared

def Op.filters : Op → Bool
  | .host ("iptables" :: _) => true
  | _ => false

def Op.errand : Op → Bool
  | .host ("iptables" :: _) => false
  | .host _ => true
  | _ => false

/-- What an operation may do to the packet filter. -/
def Filters (block : String → Option IPNet) (s : Tables) : (op : Op) → op.Reply → Tables → Prop
  | .host ("iptables" :: words), reply, s' => Performs block s words reply s'
  | _, _, s' => s' = s

/-- Any operation may fail; an iptables command that fails may have taken effect. -/
def filtered (block : String → Option IPNet) : Machine Op Op.Reply Host where
  exec s op reply s' := logged.exec s.logged op reply s'.logged ∧
    Filters block s.tables op reply s'.tables
  drift s s' := logged.drift s.logged s'.logged ∧ s'.tables = s.tables

theorem Op.filters_of_looks {op : Op} (looks : op.looks = true) : op.filters = false := by
  cases op with
  | host => cases looks
  | _ => rfl

theorem Op.filters_of_errand {op : Op} (errand : op.errand = true) : op.filters = false := by
  unfold Op.filters
  split
  · cases errand
  · rfl

/-- The answers of a store and of a host without faults: a command fails only where iptables refuses
it. -/
def hostAnswer (block : String → Option IPNet) (s : Host) (op : Op) : op.Reply × Host :=
  match op with
  | .host ("iptables" :: words) =>
    match perform block s.tables words with
    | some (text, s') =>
      (.ok text, ⟨⟨s.shared, ⟨s.shared, "iptables" :: words, .ok text⟩ :: s.logged.deeds⟩, s'⟩)
    | none =>
      (.error (.new "exit status 1"), ⟨⟨s.shared,
        ⟨s.shared, "iptables" :: words, .error (.new "exit status 1")⟩ :: s.logged.deeds⟩,
          s.tables⟩)
  | op => ((loggedAnswer s.logged op).1, ⟨(loggedAnswer s.logged op).2, s.tables⟩)

theorem hostAnswer_exec (block : String → Option IPNet) (s : Host) (op : Op) :
    (filtered block).exec s op (hostAnswer block s op).1 (hostAnswer block s op).2 := by
  unfold hostAnswer
  split
  · next words =>
    split
    · next text s' done => exact ⟨⟨rfl, rfl⟩, done⟩
    · exact ⟨⟨rfl, rfl⟩, .inl rfl⟩
  · next other =>
    refine ⟨loggedAnswer_exec s.logged _, ?_⟩
    unfold Filters
    split
    · exact absurd rfl (other _)
    · rfl

section

variable {α : Type} {block : String → Option IPNet} {s : Host} {inv : Host → Prop} {op : Op}
variable {reply : op.Reply}

theorem filters_of_not (other : op.filters = false) {tabs s' : Tables}
    (ran : Filters block tabs op reply s') : s' = tabs := by
  unfold Filters at ran
  split at ran
  · cases other
  · exact ran

variable {prog : Prog α}

theorem keeps_filtered {holds : Logged → Prop} {post : α → Logged → Prop}
    (apart : prog.Uses (fun op => op.filters = false) fun _ => True)
    (keeps : prog.Keeps logged holds post s.logged) :
    prog.Keeps (filtered block) (fun now => holds now.logged ∧ now.tables = s.tables)
      (fun val s' => post val s'.logged ∧ s'.tables = s.tables) s := by
  induction prog generalizing s with
  | ret val => exact ⟨keeps, rfl⟩
  | call op next ih =>
    rintro reply s' ⟨ran, filter⟩
    have eq := filters_of_not apart.1 filter
    have step := keeps reply s'.logged ran
    refine ⟨⟨step.1, eq⟩, ?_⟩
    have rest := @ih reply s' (apart.2 reply) step.2
    rw [eq] at rest
    exact rest

theorem filtered_looks (looks : op.looks = true) {s' : Host}
    (ran : (filtered block).exec s op reply s') : s' = s := by
  have eq : s'.logged = s.logged := logged_looks looks ran.1
  have tabs := filters_of_not (Op.filters_of_looks looks) ran.2
  cases s'
  cases eq
  cases tabs
  rfl

theorem keeps_seeing {post : α → Prop} (holds : inv s) (looks : prog.Uses Op.Looking fun _ => True)
    (keeps : prog.Ends logged (fun val s' => s' = s.logged ∧ post val) s.logged) :
    prog.Keeps (filtered block) inv (fun val s' => s' = s ∧ post val) s := by
  induction prog with
  | ret val => exact ⟨rfl, keeps.2⟩
  | call op next ih =>
    intro reply s' ran
    obtain rfl := filtered_looks looks.1 ran
    exact ⟨holds, ih reply (looks.2 reply) (keeps reply _ ran.1).2⟩

/-- Whatever comes of the operation, the packet filter keeps the property. -/
def Op.Sustains (block : String → Option IPNet) (holds : Tables → Prop) (op : Op) : Prop :=
  ∀ words, op = .host ("iptables" :: words) →
    ∀ (tables s' : Tables) (reply : Except Error String), holds tables →
    Performs block tables words reply s' → holds s'

theorem Op.sustains_of_not (other : op.filters = false) (holds : Tables → Prop) :
    op.Sustains block holds := by
  rintro words rfl
  cases other

theorem Op.Sustains.filters {holds : Tables → Prop} (sustains : op.Sustains block holds)
    {tabs s' : Tables} (ran : Filters block tabs op reply s')
    (initially : holds tabs) : holds s' := by
  unfold Filters at ran
  split at ran
  · exact sustains _ rfl tabs s' _ initially ran
  · rw [ran]
    exact initially

theorem keeps_sustaining {holds : Tables → Prop}
    (uses : prog.Uses (Op.Sustains block holds) fun _ => True) (initially : holds s.tables) :
    prog.Keeps (filtered block) (fun now => holds now.tables) (fun _ s' => holds s'.tables) s := by
  induction prog generalizing s with
  | ret val => exact initially
  | call op next ih =>
    rintro reply s' ⟨-, filter⟩
    have kept : holds s'.tables := uses.1.filters filter initially
    exact ⟨kept, ih reply (uses.2 reply) kept⟩

/-- The operation is an iptables command that writes at most to the chain. -/
def Op.About (table chain : String) (op : Op) : Prop :=
  ∃ words rest cmd, op = .host ("iptables" :: words) ∧ tableOf words = (table, rest) ∧
    commandOf rest = some cmd ∧ ∀ other, other ≠ chain → cmd.writes other = false

theorem chainCommand {table chain : String} {words rest : List String} {cmd : Command}
    (about : tableOf words = (table, rest)) (names : commandOf rest = some cmd)
    (writes : ∀ other, other ≠ chain → cmd.writes other = false) :
    Op.About table chain (.host ("iptables" :: words)) :=
  ⟨words, rest, cmd, rfl, about, names, writes⟩

theorem Op.About.sustains {table chain table' chain' : String} (about : op.About table chain)
    (apart : table' = table → chain' ≠ chain) (specs : Option (List Spec)) :
    op.Sustains block fun tabs => tabs.rules table' chain' = specs := by
  obtain ⟨words, rest, cmd, rfl, names, reads, writes⟩ := about
  rintro _ eq tabs s' reply holds performs
  cases eq
  rw [performs.frame names reads fun eq => writes chain' (apart eq), holds]

theorem keeps_about {table chain table' chain' : String}
    (uses : prog.Uses (Op.About table chain) fun _ => True)
    (apart : table' = table → chain' ≠ chain) {specs : Option (List Spec)}
    (has : s.tables.rules table' chain' = specs) :
    prog.Ends (filtered block) (fun _ s' => s'.tables.rules table' chain' = specs) s :=
  (keeps_sustaining (uses.mono (fun _ about => about.sustains apart specs) fun _ => id) has).weaken
    fun _ _ => trivial

theorem keeps_apart {table chain : String}
    (uses : prog.Uses (fun op => op.errand = true) fun _ => True) {specs : Option (List Spec)}
    (has : s.tables.rules table chain = specs) :
    prog.Ends (filtered block) (fun _ s' => s'.tables.rules table chain = specs) s := by
  have sustains : prog.Uses (Op.Sustains block fun tabs => tabs.rules table chain = specs) fun _ =>
      True :=
    uses.mono (fun _ errand => Op.sustains_of_not (Op.filters_of_errand errand) _) fun _ => id
  exact (keeps_sustaining sustains has).weaken fun _ _ => trivial

section

variable {words : List String} {next : Except Error String → Prog α} {post : α → Host → Prop}

theorem ends_iptables (rest : ∀ reply s', Performs block s.tables words reply s'.tables →
      (next reply).Ends (filtered block) post s') :
    (Program.call (.host ("iptables" :: words)) next).Ends (filtered block) post s := by
  rintro reply s' ⟨-, filter⟩
  exact ⟨trivial, rest reply s' filter⟩

theorem tries_iptables (fails : ∀ err s', (next (.error err)).Ends (filtered block) post s')
    (goes : ∀ text s', Performs block s.tables words (.ok text : Except Error String) s'.tables →
      (next (.ok text)).Ends (filtered block) post s') :
    (Program.call (.host ("iptables" :: words)) next).Ends (filtered block) post s := by
  apply ends_iptables
  intro reply s' performs
  cases reply with
  | error err => exact fails err s'
  | ok text => exact goes text s' performs

end

end

end Infrastructure.State
