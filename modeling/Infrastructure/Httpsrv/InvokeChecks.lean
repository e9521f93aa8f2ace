import Infrastructure.Httpsrv.Server
import Infrastructure.State.FileStore

/-! Who may invoke a function: what the router finds in a path, and what the check in front of it
has looked at. -/

namespace Infrastructure.Httpsrv

open Concurrency State Domain Text Net FunctionService List Program

theorem cleanPath_slash {path : List Char} (cleaned : cleanPath path = path) :
    ∃ rest, path = '/' :: rest := by
  unfold cleanPath at cleaned
  split at cleaned
  · exact ⟨[], cleaned.symm⟩
  · obtain ⟨rest, rooted⟩ : ∃ rest, (if path.head? = some '/' then path else '/' :: path) =
      '/' :: rest := by
      split
      · next slash => exact ⟨path.tail, (cons_head?_tail slash).symm⟩
      · exact ⟨path, rfl⟩
    obtain ⟨text, rendered⟩ : ∃ text, (clean ('/' :: rest)).render = '/' :: text := by
      rw [clean_slash, Path.render, Path.walk_root rfl]
      exact ⟨_, rfl⟩
    simp only [rooted, rendered] at cleaned
    split at cleaned
    · exact ⟨_, cleaned.symm⟩
    · exact ⟨_, cleaned.symm⟩

section

variable {r : HTTPRequest} {uid : List Char} (dispatched : r.invokes = some uid)

include r uid dispatched

theorem invokes_path : r.method = "POST" ∧
      r.path = (apiBase ++ "/").toList ++
        (kindFunction.toList ++ '/' :: (uid ++ '/' :: "invoke".toList)) := by
  unfold HTTPRequest.invokes at dispatched
  split at dispatched
  · next served =>
    refine ⟨served.1, ?_⟩
    obtain ⟨rest, rooted⟩ := cleanPath_slash served.2
    have decodes := r.decodes
    rw [rooted, pathUnescape_plain (by decide)] at decodes
    obtain ⟨dec, got, eq⟩ := Option.map_eq_some_iff.mp decodes
    have parts := pathUnescape_segments got
    split at dispatched
    · next api v kind got action split =>
      rw [routeSegments, rooted, tail_cons] at split
      split at dispatched
      · next fixed =>
        cases dispatched
        rw [split, fixed.1, fixed.2.1, fixed.2.2.1, fixed.2.2.2.1] at parts
        rw [← eq, parts]
        simp [List.intercalate, apiBase]
      · cases dispatched
    · cases dispatched
  · cases dispatched

theorem invokes_elsewhere : ¬ (r.path = healthPath.toList ∨ r.path = "/readyz".toList) := by
  have snd : r.path[1]? = some 'a' := by
    rw [(invokes_path dispatched).2]
    simp [apiBase]
  intro health
  rcases health with health | ready
  · rw [health] at snd
    revert snd
    decide
  · rw [ready] at snd
    revert snd
    decide

theorem invokes_parts : r.parts = kindFunction.toList :: (segments uid ++ ["invoke".toList]) := by
  have flat (text : List Char) (plain : '/' ∉ text) : segments text = [text] :=
    splitOn_eq_singleton plain
  rw [HTTPRequest.parts, (invokes_path dispatched).2, trimPrefix, if_pos (by simp), drop_left,
    segments_join, segments_join, flat _ (by decide), flat "invoke".toList (by decide)]
  rfl

end

section

/-- The caller was granted write permission on the function that was read before. -/
def Granted (functions : Functions) (uid : String) (caller : Option Identity)
    (past : Trace Op Op.Reply) : Prop :=
  ∃ newer older data fn identity, caller = some identity ∧
    past = newer ++
      ⟨.ask (.allowed identity.subject (identity.hasRole adminRole) fn.metadata.ownerUID
      fn.metadata.projectID .write), true⟩ :: older ∧
    ⟨.get (functions.key uid), .ok data⟩ ∈ older ∧ functions.decode uid data = .ok fn

/-- Before permission is granted the function is only read and permission asked for. -/
def CheckedFirst (functions : Functions) (uid : String) (caller : Option Identity)
    (past : Trace Op Op.Reply) (op : Op) : Prop :=
  op = .get (functions.key uid) ∨ (∃ question, op = .ask question) ∨
    Granted functions uid caller past

variable {functions : Functions} {uid : String} {caller : Option Identity}
    {past : Trace Op Op.Reply}

theorem Granted.later (got : Granted functions uid caller past) (event : Sigma Op.Reply) :
    Granted functions uid caller (event :: past) := by
  obtain ⟨newer, older, data, fn, identity, called, split, rest⟩ := got
  exact ⟨event :: newer, older, data, fn, identity, called, by rw [split, cons_append], rest⟩

theorem Granted.always (got : Granted functions uid caller past) {α : Type} (prog : Prog α) :
    prog.Always (CheckedFirst functions uid caller) (fun _ _ => True) past :=
  always_of_lasting (fun event _ got => got.later event) (fun _ _ got => .inr (.inr got)) got prog

variable (server : Server)

/-- The check lets a request through only after write permission was granted. -/
theorem authorizeInvoke_always (identity : Option Identity) (uid : String) :
    (server.authorizeInvoke identity uid).Always
    (CheckedFirst server.service.functions uid identity)
      (fun past refusal => refusal = none → Granted server.service.functions uid identity past)
        [] := by
  rw [Server.authorizeInvoke, Registry.get_bind]
  refine ⟨.inl rfl, ?_⟩
  intro reply
  dsimp only
  cases received : server.service.functions.received uid reply with
  | error err => exact fun passes => nomatch passes
  | ok fn =>
    cases identity with
    | none => exact fun passes => nomatch passes
    | some identity =>
      refine ⟨.inr (.inl ⟨_, rfl⟩), ?_⟩
      intro allowed
      cases allowed with
      | false => exact fun passes => nomatch passes
      | true =>
        cases reply with
        | error err => cases received
        | ok data =>
          exact fun _ => ⟨[], _, data, fn, identity, rfl, rfl, mem_singleton.mpr rfl, received⟩

/-- A slash in the uid makes the path look longer than that of an invocation. -/
theorem authorizeSpecialized_invoke {r : HTTPRequest} {uid : List Char}
    (dispatched : r.invokes = some uid)
    (identity : Option Identity) : server.authorizeSpecialized r identity =
      if '/' ∈ uid then return none else server.authorizeInvoke identity (.ofList uid) := by
  rw [Server.authorizeSpecialized, invokes_parts dispatched]
  have kind : String.ofList
      ((kindFunction.toList :: (segments uid ++ ["invoke".toList])).headD []) = kindFunction := by
    simp
  simp only [kind]
  rw [if_neg (by decide), if_pos trivial]
  by_cases slash : '/' ∈ uid
  · obtain ⟨front, back, split⟩ := append_of_mem slash
    have pieces : 2 ≤ (segments uid).length := by
      rw [split, segments_join, length_append]
      have first := length_pos_of_ne_nil (splitOn_ne_nil '/' front)
      have snd := length_pos_of_ne_nil (splitOn_ne_nil '/' back)
      exact Nat.add_le_add first snd
    rw [if_pos slash]
    split
    · next matched =>
      have lengths := congrArg List.length matched
      simp only [length_cons, length_append, length_nil] at lengths
      omega
    · rfl
  · have single : segments uid = [uid] := splitOn_eq_singleton slash
    simp [single, slash, (invokes_path dispatched).1]

theorem serve_invoke {r : HTTPRequest} {uid : List Char} (dispatched : r.invokes = some uid)
    {identity : Identity} (identified : r.identity = some identity)
    (authenticated : server.authenticated = true) :
    server.serve r = server.authorizeSpecialized r (some identity) >>= fun refusal =>
      match refusal with
      | some response => return response
      | none => server.invoke (.ofList uid) r.contentType := by
  rw [Server.serve, authenticated, if_neg (by simp), if_neg (invokes_elsewhere dispatched),
    identified]
  refine congrArg (fun next => server.authorizeSpecialized r (some identity) >>= next)
    (funext fun refusal => ?_)
  cases refusal with
  | some response => rfl
  | none => simp only [Server.route, dispatched]

/-- An endpoint that no check precedes looks for an instance without one. -/
theorem not_always_invoke {data : Bytes} {fn : Function}
    (decodes : server.service.functions.codec.unmarshal data = .ok fn)
    (ready : fn.status.phase = .ready) (caller : Option Identity) (uid contentType : String) :
    ¬ (server.invoke uid contentType).Always (CheckedFirst server.service.functions uid caller)
      (fun _ _ => True) [] := by
  intro always
  rw [Server.invoke, Service.invoke, Program.bind_assoc, Registry.get_bind] at always
  have searched := always.2 (.ok data)
  simp only [Registry.received, Registry.decode, decodes, Resource.withVersion_status, ready, ne_eq,
    not_true_eq_false, if_false, Service.claimWarmInstance, Registry.list, State.list,
    Program.bind_assoc, Program.perform_bind] at searched
  rcases searched.1 with read | ⟨question, asked⟩ |
    ⟨newer, older, data, fn, identity, called, split, _⟩
  · cases read
  · cases asked
  · cases newer with
    | nil => cases split
    | cons event newer =>
      rw [cons_append, List.cons.injEq] at split
      exact absurd split.2 (by simp)

end

def victim : Function where
  metadata := { uid := "victim", ownerUID := "alice" }
  spec := { subnetId := "s", image := "i", port := 8080, warmPool := { allowColdStart := true } }
  status := { phase := .ready }

def victimServer : Server where
  authenticated := true
  service :=
    { functions := ⟨kindFunction, .ofTable [(victim, [1])] (by decide)⟩
      instances := ⟨kindFunctionInstance, .ofTable [] (by decide)⟩
      computes := ⟨kindCompute, .ofTable [] (by decide)⟩
      nodes := ⟨kindNode, .ofTable [] (by decide)⟩
      coldStartTimeout := 30000000000
      format := fun _ => ""
      polls := 0 }

theorem victimServer_readable :
    victimServer.service.functions.codec.unmarshal [1] = .ok victim := by decide

def invocation (escapedPath path : String)
    (decodes : pathUnescape escapedPath.toList = some path.toList) : HTTPRequest where
  method := "POST"
  escapedPath := escapedPath.toList
  path := path.toList
  decodes := decodes
  identity := some ⟨"mallory", []⟩

end Infrastructure.Httpsrv
