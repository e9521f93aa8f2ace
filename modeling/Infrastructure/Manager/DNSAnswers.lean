import Mathlib.Tactic.Basic

/-! What the agent's DNS listeners answer. -/

namespace Infrastructure.Manager.DNS

/-- What the DNS library says of names. -/
structure Names where
  canonicalName : String → String
  isSubDomain : (parent child : String) → Bool
  countLabel : String → Nat

structure RR where
  name : String
  rrtype : Nat
  ttl : Nat := 300
  data : String := ""
  /-- The target, in a record that is an alias. -/
  cname : Option String := none
  deriving DecidableEq, Repr

structure Question where
  name : String
  qtype : Nat
  deriving DecidableEq, Repr

structure Msg where
  id : Nat := 0
  question : List Question
  authoritative : Bool := false
  rcode : Nat := 0
  answer : List RR := []
  ns : List RR := []
  deriving DecidableEq, Repr

def rcodeFormatError : Nat := 1
def rcodeServerFailure : Nat := 2
def rcodeNameError : Nat := 3
def rcodeRefused : Nat := 5
def typeSOA : Nat := 6
def typeANY : Nat := 255

structure DNSZone where
  domain : String
  records : List RR := []
  deriving DecidableEq, Repr

structure DNSView where
  zones : List DNSZone
  forward : Bool := false
  deriving DecidableEq, Repr

abbrev DNSForwarder := Msg → Except String Msg

section

variable (names : Names) (zone : DNSZone) (qtype : Nat)

def DNSZone.apex : String := names.canonicalName zone.domain

def DNSZone.owned (name : String) : List RR :=
  zone.records.filter fun rr => names.canonicalName rr.name == name

def DNSZone.soa : RR :=
  { name := zone.apex names, rrtype := typeSOA
    data := "ns." ++ zone.apex names ++ " hostmaster." ++ zone.apex names ++
      " 1 3600 600 86400 300" }

def DNSView.zoneFor (view : DNSView) (name : String) : Option DNSZone :=
  view.zones.foldl (fun best zone =>
    if names.isSubDomain (zone.apex names) name &&
        best.all fun best => names.countLabel (best.apex names) <
          names.countLabel (zone.apex names) then
      some zone
    else best) none

/-- What one hop adds to a response, and the name that the next hop is for. -/
structure Hop where
  answer : List RR := []
  ns : List RR := []
  rcode : Nat := 0
  next : Option String := none

def hop (name : String) : Hop :=
  let owned := zone.owned names name
  let matched := owned.filter fun rr => rr.rrtype == qtype || qtype == typeANY
  if matched ≠ [] then { answer := matched }
  else if name = zone.apex names ∧ qtype = typeSOA then { answer := [zone.soa names] }
  else
    -- no record is asked for here, and the last alias counts
    match owned.reverse.findSome? fun rr => rr.cname.map (rr, ·) with
    | some (rr, t) =>
      let t := names.canonicalName t
      { answer := [rr], next := if names.isSubDomain (zone.apex names) t then some t else none }
    | none =>
      { ns := [zone.soa names]
        rcode := if owned = [] ∧ name ≠ zone.apex names then rcodeNameError else 0 }

/-- The hops along aliases within a zone, as many as are left. -/
def follow : Nat → String → Hop
  | 0, _ => {}
  | hops + 1, name =>
    let found := hop names zone qtype name
    match found.next with
    | some t =>
      let rest := follow hops t
      { rest with answer := found.answer ++ rest.answer }
    | none => found

def answer (view : DNSView) (fwd : Option DNSForwarder) (q : Msg) : Msg :=
  let m : Msg := { id := q.id, question := q.question.take 1 }
  match q.question with
  | [question] =>
    match view.zoneFor names (names.canonicalName question.name), fwd with
    | some zone, _ =>
      let found := follow names zone question.qtype 8 (names.canonicalName question.name)
      { m with authoritative := true, answer := found.answer, ns := found.ns, rcode := found.rcode }
    | none, none => { m with rcode := rcodeRefused }
    | none, some forward =>
      if view.forward then
        match forward q with
        | .ok resp => { resp with id := q.id }
        | .error _ => { m with rcode := rcodeServerFailure }
      else { m with rcode := rcodeRefused }
  | _ => { m with rcode := rcodeFormatError }

/-- The aliases from a name end before the hops do. -/
def ends : Nat → String → Bool
  | 0, _ => false
  | hops + 1, name => (hop names zone qtype name).next.all (ends hops)

/-- The name of the zone that the last hop is for. -/
def lastName : Nat → String → String
  | 0, name => name
  | hops + 1, name =>
    match (hop names zone qtype name).next with
    | some t => if hops = 0 then name else lastName hops t
    | none => name

variable {names zone qtype}

theorem follow_of_ends {hops : Nat} {name : String} (short : ends names zone qtype hops name) :
    follow names zone qtype (hops + 1) name = follow names zone qtype hops name := by
  induction hops generalizing name with
  | zero => cases short
  | succ hops ih =>
    rw [ends] at short
    rw [follow.eq_2, follow.eq_2]
    cases next : (hop names zone qtype name).next with
    | none => rfl
    | some t =>
      rw [next] at short
      simp only [ih short]

theorem hop_rcode (name : String) : (hop names zone qtype name).rcode =
    if zone.owned names name = [] ∧ name ≠ zone.apex names then rcodeNameError else 0 := by
  by_cases missing : zone.owned names name = [] ∧ name ≠ zone.apex names
  · simp [hop, missing.1, missing.2]
  · rw [if_neg missing, hop]
    split
    · rfl
    · split
      · rfl
      · split <;> rfl

theorem hop_next {name t : String} (next : (hop names zone qtype name).next = some t) :
    zone.owned names name ≠ [] := by
  intro nothing
  rw [hop] at next
  simp only [nothing, List.filter_nil, ne_eq, not_true_eq_false, if_false, List.reverse_nil,
    List.findSome?_nil] at next
  split at next <;> cases next

theorem follow_rcode (hops : Nat) (name : String) :
    (follow names zone qtype (hops + 1) name).rcode =
      let final := lastName names zone qtype (hops + 1) name
      if zone.owned names final = [] ∧ final ≠ zone.apex names then rcodeNameError else 0 := by
  induction hops generalizing name with
  | zero =>
    rw [follow, lastName]
    cases next : (hop names zone qtype name).next with
    | none => exact hop_rcode name
    | some t => simp [follow, hop_next next]
  | succ hops ih =>
    rw [follow, lastName]
    cases next : (hop names zone qtype name).next with
    | none => exact hop_rcode name
    | some t => exact ih t

theorem zoneFor_contains {view : DNSView} {name : String}
    (got : view.zoneFor names name = some zone) :
    names.isSubDomain (zone.apex names) name := by
  let Contains (best : Option DNSZone) : Prop :=
    ∀ zone ∈ best, names.isSubDomain (zone.apex names) name
  refine List.foldlRecOn (motive := Contains) view.zones _ (by simp [Contains]) ?_ zone got
  intro best inside head _ zone mem
  simp only [Bool.and_eq_true] at mem
  split at mem
  · next better =>
    cases mem
    exact better.1
  · exact inside zone mem

end

section

variable (names : Names) (fwd : Option DNSForwarder) (id qtype : Nat) (name : String)
    (zone : DNSZone)

/-- The response code is what the records at and below the last name call for, unless there are only
some below it. -/
theorem negative_answer_iff (view : DNSView)
    (found : view.zoneFor names (names.canonicalName name) = some zone) :
    let m := answer names view fwd { id := id, question := [⟨name, qtype⟩] }
    let final := lastName names zone qtype 8 (names.canonicalName name)
    let below (rr : RR) := names.isSubDomain final (names.canonicalName rr.name)
    m.rcode = (if (∀ rr ∈ zone.records, names.canonicalName rr.name ≠ final ∧ ¬ below rr) ∧
      final ≠ zone.apex names
        then rcodeNameError else 0) ↔
      ¬ ((zone.owned names final = [] ∧ final ≠ zone.apex names) ∧
        ∃ rr ∈ zone.records, below rr) := by
  intro m final below
  have code : m.rcode = if zone.owned names final = [] ∧
      final ≠ zone.apex names then rcodeNameError else 0 := by
    simpa [m, answer, found] using follow_rcode 7 _
  have absent : ((∀ rr ∈ zone.records, names.canonicalName rr.name ≠ final ∧ ¬ below rr) ∧
      final ≠ zone.apex names) ↔
      (zone.owned names final = [] ∧ final ≠ zone.apex names) ∧
        ¬ ∃ rr ∈ zone.records, below rr := by
    simp only [DNSZone.owned, List.filter_eq_nil_iff, beq_iff_eq, not_exists, not_and]
    grind
  simp only [code, absent]
  by_cases missing : zone.owned names final = [] ∧ final ≠ zone.apex names <;>
    by_cases under : ∃ rr ∈ zone.records, below rr <;> simp [missing, under, rcodeNameError]

end

/-- Names that are taken as they are written. -/
def plainNames : Names where
  canonicalName := id
  isSubDomain parent child := parent.toList.isSuffixOf child.toList
  countLabel name := name.toList.count '.'

def sampleZone : DNSZone where
  domain := "example."
  records := [{ name := "www.example.", rrtype := 5, cname := some "web.eu.example." },
    { name := "docs.example.", rrtype := 5, cname := some "web.lab.example." },
    { name := "web.eu.example.", rrtype := 1, data := "10.0.0.1" }]

/-- A zone and another one below it. -/
def sampleView : DNSView where
  zones := [sampleZone,
    ⟨"lab.example.", [{ name := "web.lab.example.", rrtype := 1, data := "10.0.0.2" }]⟩]

def ask (name : String) : Msg := answer plainNames sampleView none { question := [⟨name, 1⟩] }

/-- A name that only has records below it is said not to exist. -/
theorem name_above_records_missing : (ask "eu.example.").rcode = rcodeNameError ∧
      plainNames.isSubDomain "eu.example." "web.eu.example." ∧
        (ask "web.eu.example.").answer ≠ [] := by
  decide

theorem negative_answer_iff_sample :
    sampleView.zoneFor plainNames "us.example." = some sampleZone ∧
      (ask "us.example.").rcode = rcodeNameError :=
  ⟨by decide,
    (negative_answer_iff plainNames none 0 1 "us.example." sampleZone sampleView
      (by decide)).mpr (by decide)⟩

end Infrastructure.Manager.DNS
