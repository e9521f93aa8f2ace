import Mathlib.Data.List.DropRight
import Infrastructure.Net.Address
import Infrastructure.State.Rules

/-! Reservations of addresses in the shared store: a key per address, created only
if absent. -/

namespace Infrastructure.Manager

open Concurrency State Net

def addressKey (subnet ip : String) : String := "ipam/" ++ subnet ++ "/" ++ ip

theorem addressKey_inj {subnet first snd : String}
    (eq : addressKey subnet first = addressKey subnet snd) : first = snd :=
  (String.append_right_inj ("ipam/" ++ subnet ++ "/")).mp eq

/-- How many hosts get an address of their own in each subnet. -/
def maxNodePorts : UInt32 := 5

section

-- `net.ParseCIDR`, without the address it also returns
variable (parseCIDR : String → Except Error IPNet)

/-- The last usable IPv4 host, with the arithmetic of `uint32`. -/
def lastHost (cidr : String) : Except Error (UInt32 × IPNet) :=
  match parseCIDR cidr with
  | .error err => .error (.wrap ("manager: invalid cidr " ++ quoted cidr) err)
  | .ok ipnet =>
    match to4 ipnet.ip with
    | none => .error (.new ("manager: only IPv4 subnets are supported: " ++ quoted cidr))
    | some base => .ok (bigEndian base + UInt32.ofNat (2 ^ (ipnet.bits - ipnet.ones)) - 2, ipnet)

def reservedForNodes (cidr : String) (cand : List UInt8) : Bool :=
  match lastHost parseCIDR cidr with
  | .error _ => false
  | .ok (last, _) => last - maxNodePorts < bigEndian cand

/-- The last byte of a candidate runs from 10 to 249. -/
def candidates (base : IP) : List (List UInt8) :=
  (List.range' 10 240).map fun i => base.take 3 ++ [UInt8.ofNat i]

/-- The candidates of a network that may be handed out, as text. -/
def allocatable (cidr : String) (ipnet : IPNet) (base : IP) : List String :=
  ((candidates base).filter fun cand => ipnet.contains (v4InV6 ++ cand) &&
    !reservedForNodes parseCIDR cidr cand).map dotted

def allocateIP (cidr : String) (used : List String) : Except Error String :=
  match parseCIDR cidr with
  | .error err => .error (.wrap ("manager: invalid cidr " ++ quoted cidr) err)
  | .ok ipnet =>
    match to4 ipnet.ip with
    | none => .error (.new ("manager: only IPv4 subnets are supported: " ++ quoted cidr))
    | some base =>
      match (allocatable parseCIDR cidr ipnet base).find? fun ip => !used.contains ip with
      | some ip => .ok ip
      | none => .error (.new ("manager: no free address in " ++ cidr))

def hosts (cidr : String) : List String :=
  match parseCIDR cidr with
  | .error _ => []
  | .ok ipnet => ((to4 ipnet.ip).map (allocatable parseCIDR cidr ipnet)).getD []

theorem allocateIP_spec {cidr ip : String} {used : List String}
    (allocated : allocateIP parseCIDR cidr used = .ok ip) :
    ip ∈ hosts parseCIDR cidr ∧ ip ∉ used := by
  unfold allocateIP at allocated
  split at allocated
  · cases allocated
  · next ipnet parsed =>
    split at allocated
    · cases allocated
    · next base four =>
      split at allocated
      · next got =>
        cases allocated
        have free := List.find?_some got
        simp only [Bool.not_eq_true', List.contains_eq_mem, decide_eq_false_iff_not] at free
        rw [hosts, parsed]
        simp only [four, Option.map_some, Option.getD_some]
        exact ⟨List.mem_of_find?_eq_some got, free⟩
      · cases allocated

def untried (cidr : String) (used : List String) : Nat :=
  ((hosts parseCIDR cidr).filter fun ip => !used.contains ip).length

theorem untried_lt {cidr ip : String} {used : List String}
    (allocated : allocateIP parseCIDR cidr used = .ok ip) :
    untried parseCIDR cidr (ip :: used) < untried parseCIDR cidr used := by
  obtain ⟨seen, free⟩ := allocateIP_spec parseCIDR allocated
  have narrower : ((hosts parseCIDR cidr).filter fun other => !(ip :: used).contains other) =
      ((hosts parseCIDR cidr).filter fun other => !used.contains other).filter (· != ip) := by
    rw [List.filter_filter]
    apply List.filter_congr
    intro other _
    simp only [List.contains_cons, Bool.not_or]
    rfl
  rw [untried, untried, narrower, List.length_filter_lt_length_iff_exists]
  refine ⟨ip, List.mem_filter.mpr ⟨seen, by simpa using free⟩, by simp⟩

end

/-- Reserves `ip` for `owner`: whether `owner` holds it afterwards, and who does. -/
def claim (subnet ip owner : String) : Prog (Except Error (Bool × Bytes)) := do
  let key := addressKey subnet ip
  match ← Program.perform (Op.cas key none (bytesOf owner)) with
  | .error err => return .error (.wrap ("manager: reserve " ++ ip ++ " in " ++ subnet) err)
  | .ok true => return .ok (true, bytesOf owner)
  | .ok false =>
    match ← Program.perform (Op.get key) with
    | .error err =>
      return .error (.wrap ("manager: read reservation of " ++ ip ++ " in " ++ subnet) err)
    | .ok cur => return .ok (cur = bytesOf owner, cur)

/-- Reserves the first address that is neither in `used` nor reserved by another. -/
def allocate (parseCIDR : String → Except Error IPNet) (cidr subnet owner : String)
    (used : List String) : Prog (Except Error String) :=
  match _allocated : allocateIP parseCIDR cidr used with
  | .error err => return .error err
  | .ok ip => do
      match ← claim subnet ip owner with
      | .error err => return .error err
      | .ok (true, _) => return .ok ip
      | .ok (false, _) => allocate parseCIDR cidr subnet owner (ip :: used)
  termination_by untried parseCIDR cidr used
  decreasing_by exact untried_lt parseCIDR _allocated

/-- Drops the reservation if the bytes stored are those of `owner`. -/
def releaseOf (subnet ip : String) (owner : Bytes) : Prog (Except Error Unit) := do
  let key := addressKey subnet ip
  match ← Program.perform (Op.get key) with
  | .error err =>
    if err.is errNotFound then return .ok ()
    else return .error (.wrap ("manager: read reservation of " ++ ip ++ " in " ++ subnet) err)
  | .ok cur =>
    if cur ≠ owner then return .ok ()
    else
      match ← Program.perform (Op.delete key) with
      | .error err => return .error (.wrap ("manager: release " ++ ip ++ " in " ++ subnet) err)
      | .ok () => return .ok ()

def release (subnet ip owner : String) : Prog (Except Error Unit) :=
  releaseOf subnet ip (bytesOf owner)

/-- `path.Base`. -/
def pathBase (path : String) : String :=
  let trimmed := path.toList.rdropWhile (· == '/')
  if path = "" then "." else if trimmed = [] then "/" else
    String.ofList (trimmed.rtakeWhile (· != '/'))

def releaseEach (subnet : String) (live : List Bytes) : List (String × Bytes) →
    Prog (Except Error Unit)
  | [] => return .ok ()
  | (key, owner) :: rest =>
    if live.contains owner then releaseEach subnet live rest
    else do
      match ← releaseOf subnet (pathBase key) owner with
      | .error err => return .error err
      | .ok () => releaseEach subnet live rest

/-- Drops the reservations whose owner is gone. -/
def releaseStale (subnet : String) (live : List Bytes) : Prog (Except Error Unit) := do
  match ← State.list ("ipam/" ++ subnet) with
  | .error err => return .error (.wrap "manager: list public reservations" err)
  | .ok values => releaseEach subnet live values

/-- The calls of the agents on the reservations of one subnet. -/
inductive BookCall where
  | claim (ip owner : String)
  | allocate (cidr owner : String) (used : List String)
  | release (ip owner : String)
  | releaseStale (live : List Bytes)

/-- What an agent calls, and the address that it is then told to have. -/
def BookCall.run (parseCIDR : String → Except Error IPNet) (subnet : String) : BookCall →
    Prog (Except Error (Option String))
  | .claim ip owner =>
    return (← Manager.claim subnet ip owner).map fun out => if out.1 then some ip else none
  | .allocate cidr owner used =>
    return (← Manager.allocate parseCIDR cidr subnet owner used).map some
  | .release ip owner => return (← Manager.release subnet ip owner).map fun _ => none
  | .releaseStale live => return (← Manager.releaseStale subnet live).map fun _ => none

def BookCall.claimant : BookCall → Option String
  | .claim _ owner => some owner
  | .allocate _ owner _ => some owner
  | _ => none

/-- The operation tells its caller that the reservation under the key is the claimant's. -/
def wins (claimant : Option String) (key : String) : (op : Op) → op.Reply → Bool
  | .cas t _ _, .ok true => claimant.isSome && t == key
  | .get t, .ok data => claimant.map bytesOf == some data && t == key
  | _, _ => false

/-- The bytes a thread was told by its last operation, if that read the key. -/
def lastRead (index : Nat) (key : String) (past : List (StoreEvent BookCall)) : Option Bytes :=
  match past.find? fun event => event.thread == index with
  | some ⟨_, _, .get t, .ok data⟩ => if t = key then some data else none
  | _ => none

/-- The owner won the address and no release of its reservation has been sent since. -/
def Holds (subnet ip owner : String) : List (StoreEvent BookCall) → Bool
  | [] => false
  | ⟨index, call, op, reply⟩ :: past =>
    let key := addressKey subnet ip
    if call.claimant = some owner ∧ wins call.claimant key op reply then true
    else if op = .delete key ∧ lastRead index key past = some (bytesOf owner) then false
    else Holds subnet ip owner past

/-- A removal finds no reservation, or the one its thread has just read. -/
def RemovesRead (s s' : StoreWorld BookCall) : Prop :=
  ∀ index call key reply, s'.past = ⟨index, call, .delete key, reply⟩ :: s.past →
    s.state.value key = none ∨ s.state.value key = lastRead index key s.past

/-- What the calls ask of the store: to read, to remove, and to create a reservation. -/
def Issued (call : BookCall) : Op → Prop
  | .put _ _ => False
  | .cas _ old new => old = none ∧ ∃ owner, call.claimant = some owner ∧ new = bytesOf owner
  | _ => True

section

variable {allowed : Op → Prop} {subnet ip owner : String}
    (read : ∀ ip, allowed (.get (addressKey subnet ip)))

include read

theorem claim_uses (swap : allowed (.cas (addressKey subnet ip) none (bytesOf owner))) :
    (claim subnet ip owner).Uses allowed fun _ => True := by
  refine .perform swap ?_
  intro reply
  match reply with
  | .error err => trivial
  | .ok true => trivial
  | .ok false =>
    refine .perform (read ip) ?_
    intro reply
    cases reply <;> trivial

theorem allocate_uses (parseCIDR : String → Except Error IPNet) (cidr : String)
    (swap : ∀ ip, allowed (.cas (addressKey subnet ip) none (bytesOf owner))) (used : List String) :
    (allocate parseCIDR cidr subnet owner used).Uses allowed fun _ => True := by
  fun_induction allocate parseCIDR cidr subnet owner used with
  | case1 used err failed => trivial
  | case2 used ip allocated ih =>
    refine .bind (claim_uses read (swap ip)) ?_
    intro out _
    match out with
    | .error err => trivial
    | .ok (true, _) => trivial
    | .ok (false, _) => exact ih

theorem releaseOf_uses (removed : allowed (.delete (addressKey subnet ip))) (owner : Bytes) :
    (releaseOf subnet ip owner).Uses allowed fun _ => True := by
  refine .perform (read ip) ?_
  intro reply
  cases reply with
  | error err =>
    dsimp only
    split <;> trivial
  | ok cur =>
    dsimp only
    split
    · trivial
    · refine .perform removed ?_
      intro reply
      cases reply <;> trivial

end

section

variable {call : BookCall} {subnet ip : String}

theorem releaseEach_issued (live : List Bytes) (vals : List (String × Bytes)) :
    (releaseEach subnet live vals).Uses (Issued call) fun _ => True := by
  induction vals with
  | nil => trivial
  | cons value vals ih =>
    unfold releaseEach
    split
    · exact ih
    · refine .bind (releaseOf_uses (fun _ => trivial) trivial _) ?_
      intro out _
      cases out with
      | error err => trivial
      | ok done => exact ih

theorem releaseStale_issued (live : List Bytes) :
    (releaseStale subnet live).Uses (Issued call) fun _ => True := by
  have listing : (State.list ("ipam/" ++ subnet)).Uses (Issued call) fun _ => True :=
    list_uses (fun _ => trivial) _ trivial
  refine .bind listing ?_
  intro vals _
  cases vals with
  | error err => trivial
  | ok vals => exact releaseEach_issued live vals

end

/-- Who holds an address is who its reservation names. -/
def book (subnet : String) : Protocol machine BookCall where
  invariant w := ∀ ip owner, Holds subnet ip owner w.past = true →
    w.state.value (addressKey subnet ip) = some (bytesOf owner)
  permitted := RemovesRead
  rely _ _ _ _ := True
  guarantee _ _ := True
  rely_refl _ _ _ := trivial
  rely_trans _ _ _ _ _ _ _ := trivial

section

variable {subnet ip owner : String} {index : Nat} {call : BookCall}
variable {past : List (StoreEvent BookCall)}

theorem holds_cons {op : Op} {reply : op.Reply}
    (holds : Holds subnet ip owner (⟨index, call, op, reply⟩ :: past) = true) :
    (call.claimant = some owner ∧ wins call.claimant (addressKey subnet ip) op reply = true) ∨
      (¬(op = .delete (addressKey subnet ip) ∧
        lastRead index (addressKey subnet ip) past = some (bytesOf owner)) ∧
        Holds subnet ip owner past = true) := by
  rw [Holds] at holds
  split at holds
  · next won => exact .inl won
  · split at holds
    · cases holds
    · next kept => exact .inr ⟨kept, holds⟩

theorem book_keeps {now : StoreWorld BookCall} {op : Op} {reply : op.Reply} {state : Shared}
    (issued : Issued call op) (kept : (book subnet).invariant now)
    (ran : exec now.state op reply state)
    (ok : RemovesRead now (now.next ⟨index, call, op, reply⟩ state)) :
    (book subnet).invariant (now.next ⟨index, call, op, reply⟩ state) := by
  intro ip owner holds
  rw [World.next_state]
  rcases holds_cons holds with ⟨claims, won⟩ | ⟨stays, held⟩
  · match op, reply, issued, won, ran with
    | .cas key old new, .ok true, ⟨_, other, named, written⟩, won, ran =>
      rw [claims] at named
      cases named
      simp only [wins, Bool.and_eq_true, beq_iff_eq] at won
      rw [ran.2, ← won.2, write_value_self, written]
    | .get key, .ok data, _, won, ran =>
      simp only [wins, claims, Option.map_some, Bool.and_eq_true, beq_iff_eq,
        Option.some.injEq] at won
      rw [ran.1, ← won.2, ran.2, won.1]
  · have free := kept ip owner held
    rcases exec_value ran (addressKey subnet ip) with eq | ⟨old, new, rfl, -, got, -⟩ |
      ⟨value, rfl, -⟩ | ⟨rfl, -⟩
    · exact eq.trans free
    · -- a reservation is only ever created, and this one is there
      rw [free, issued.1] at got
      cases got
    · exact issued.elim
    · -- the removal took the reservation of the owner its thread had read
      exfalso
      apply stays
      refine ⟨rfl, ?_⟩
      rcases ok index call (addressKey subnet ip) reply rfl with gone | read
      · rw [free] at gone
        cases gone
      · rw [← read, free]

/-- The thread has been told that its claimant has the address. -/
def Won (subnet ip : String) (index : Nat) (call : BookCall) (w : StoreWorld BookCall) : Prop :=
  ∃ event ∈ w.past, event.thread = index ∧ event.call = call ∧
    wins call.claimant (addressKey subnet ip) event.op event.reply = true

variable {α : Type} {post : α → StoreWorld BookCall → Prop} {w : StoreWorld BookCall}

theorem book_performs {op : Op} {next : op.Reply → Prog α} (issued : Issued call op)
    (rest : ∀ (now : StoreWorld BookCall) reply state,
      (book subnet).Safe index call post (next reply) (now.next ⟨index, call, op, reply⟩ state)) :
    (book subnet).Safe index call post (Program.perform op >>= next) w := by
  intro now kept _ reply state ran ok
  exact ⟨trivial, book_keeps issued kept ran ok, rest now reply state⟩

theorem won_newest {op : Op} {reply : op.Reply} {state : Shared}
    (told : wins call.claimant (addressKey subnet ip) op reply = true) :
    Won subnet ip index call (w.next ⟨index, call, op, reply⟩ state) :=
  ⟨_, List.mem_cons_self, rfl, rfl, told⟩

theorem claim_safe (claims : call.claimant = some owner) : (book subnet).Safe index call
    (fun out later => ∀ data, out = .ok (true, data) → Won subnet ip index call later)
    (claim subnet ip owner) w := by
  refine book_performs ⟨rfl, owner, claims, rfl⟩ fun now reply state => ?_
  match reply with
  | .error err => nofun
  | .ok true =>
    intro _ _
    exact won_newest (by simp [wins, claims])
  | .ok false =>
    refine book_performs trivial fun now reply state => ?_
    match reply with
    | .error err => nofun
    | .ok cur =>
      intro data told
      simp only [Except.ok.injEq, Prod.mk.injEq, decide_eq_true_eq] at told
      exact won_newest (by simp [wins, claims, told.1])

theorem allocate_safe {parseCIDR : String → Except Error IPNet} {cidr : String}
    (claims : call.claimant = some owner) (used : List String) : (book subnet).Safe index call
      (fun out later => ∀ ip, out = .ok ip → Won subnet ip index call later)
      (allocate parseCIDR cidr subnet owner used) w := by
  fun_induction allocate parseCIDR cidr subnet owner used generalizing w with
  | case1 used err failed => nofun
  | case2 used ip allocated ih =>
    apply Protocol.Safe.bind
    apply (claim_safe claims).mono
    intro out later won
    match out with
    | .error err => nofun
    | .ok (true, data) =>
      rintro _ ⟨⟩
      exact won data rfl
    | .ok (false, _) => exact ih

theorem book_issues {prog : Prog (Except Error Unit)} (kept : (book subnet).invariant w)
    (issues : prog.Uses (Issued call) fun _ => True) :
    (book subnet).Safe index call
    (fun out later => ∀ ip, out = .ok (some ip) → Won subnet ip index call later)
      (prog >>= fun out => return out.map fun _ => none) w := by
  refine Protocol.Safe.bind (Protocol.Safe.of_uses ?_ issues kept ?_)
  · intro now op reply state issued inv ran ok
    exact ⟨trivial, book_keeps issued inv ran ok⟩
  · intro out later _ _
    cases out <;> nofun

end

theorem book_delivers (parseCIDR : String → Except Error IPNet) (subnet : String) :
    (book subnet).Delivers
    (fun index call out w => ∀ ip, out = .ok (some ip) → Won subnet ip index call w)
    (BookCall.run parseCIDR subnet) fun s s' => RemovesRead s.toWorld s'.toWorld where
  safe index call w kept := by
    cases call with
    | claim ip owner =>
      apply Protocol.Safe.bind
      apply (claim_safe rfl).mono
      intro out later won
      match out with
      | .error err => nofun
      | .ok (false, _) => nofun
      | .ok (true, data) =>
        rintro _ ⟨⟩
        exact won data rfl
    | allocate cidr owner used =>
      apply Protocol.Safe.bind
      apply (allocate_safe rfl used).mono
      intro out later won
      match out with
      | .error err => nofun
      | .ok ip =>
        rintro _ ⟨⟩
        exact won ip rfl
    | release ip owner =>
      exact book_issues kept (releaseOf_uses (fun _ => trivial) trivial (bytesOf owner))
    | releaseStale live => exact book_issues kept (releaseStale_issued live)
  permitted _ _ allowed := allowed
  drift s state kept moved _ := by
    refine ⟨?_, trivial⟩
    intro ip owner holds
    rw [Shared.value, moved.1]
    exact kept ip owner holds
  interference _ _ _ _ _ _ _ _ _ _ _ _ := trivial
  lasts := by
    intro s s' index call out _ grown won ip told
    obtain ⟨event, mem, own⟩ := won ip told
    rcases grown with eq | ⟨other, -, longer⟩
    · exact ⟨event, eq ▸ mem, own⟩
    · exact ⟨event, longer ▸ List.mem_cons_of_mem _ mem, own⟩

/-- An address has at most one holder while every removal takes the reservation it has read, and
who is told to have one has won it. -/
theorem holds_unique (parseCIDR : String → Except Error IPNet) {subnet : String} {start : Shared}
    {config : Configuration Op Op.Reply Shared BookCall (Except Error (Option String))}
    (reached : Reachable machine (BookCall.run parseCIDR subnet)
      (fun s s' => RemovesRead s.toWorld s'.toWorld) start config) :
    (∀ ip first second, Holds subnet ip first config.past = true →
      Holds subnet ip second config.past = true →
      first = second) ∧
    ∀ index call ip, config.thread index = some ⟨call, .ret (.ok (some ip))⟩ →
      ∃ event ∈ config.past, event.thread = index ∧ event.call = call ∧
        wins call.claimant (addressKey subnet ip) event.op event.reply = true := by
  have initially : (book subnet).invariant ⟨start, []⟩ := nofun
  have kept := ((book_delivers parseCIDR subnet).holds initially reached).1
  refine ⟨?_, ?_⟩
  · intro ip first second one two
    have same := (kept ip first one).symm.trans (kept ip second two)
    exact bytesOf_inj (Option.some.inj same)
  · intro index call ip returned
    exact (book_delivers parseCIDR subnet).result initially reached returned ip rfl

def removesRead
    (s s' : Configuration Op Op.Reply Shared BookCall (Except Error (Option String))) : Bool :=
  match s'.past with
  | ⟨index, _, .delete key, _⟩ :: _ =>
    s.state.value key == none || s.state.value key == lastRead index key s.past
  | _ => true

theorem removesRead_sound
    (s s' : Configuration Op Op.Reply Shared BookCall (Except Error (Option String)))
    (ok : removesRead s s' = true) : RemovesRead s.toWorld s'.toWorld := by
  intro index call key reply newest
  rw [removesRead, newest] at ok
  simpa using ok

/-- The reservation of `vm-a` is released and `vm-b` claims the address. -/
def handover : List (Move Shared BookCall) :=
  [.start 0 (.claim "10.0.0.10" "vm-a"), .act 0, .start 1 (.release "10.0.0.10" "vm-a"), .act 1,
    .act 1, .start 2 (.claim "10.0.0.10" "vm-b"), .act 2]

theorem holds_unique_handover : ∃ config :
    Configuration Op Op.Reply Shared BookCall (Except Error (Option String)),
      Holds "subnet-1" "10.0.0.10" "vm-b" config.past = true ∧
      ∀ owner, Holds "subnet-1" "10.0.0.10" owner config.past = true → owner = "vm-b" := by
  obtain ⟨config, reached, holds⟩ : ∃ config,
      Reachable machine (BookCall.run (fun _ => .error (.new "invalid CIDR address")) "subnet-1")
        (fun s s' => RemovesRead s.toWorld s'.toWorld) ⟨∅, 0⟩ config ∧
        Holds "subnet-1" "10.0.0.10" "vm-b" config.past = true :=
    play_reaches answer_exec removesRead_sound
      (show ∀ move ∈ handover, move.Legal machine by simp [handover, Move.Legal])
        (by decide +kernel)
  exact ⟨config, holds, fun owner also => (holds_unique _ reached).1 _ _ _ also holds⟩

/-- Two edges find `vm-a`'s reservation stale; the second to remove it takes `vm-b`'s, and `vm-c`
gets the address too. -/
def twoReleases : List (Move Shared BookCall) :=
  [.start 0 (.claim "203.0.113.10" "vm-a"), .act 0,
    .start 1 (.release "203.0.113.10" "vm-a"), .act 1, .start 2 (.release "203.0.113.10" "vm-a"),
      .act 2, .act 1, .start 3 (.claim "203.0.113.10" "vm-b"), .act 3, .act 2,
    .start 4 (.claim "203.0.113.10" "vm-c"), .act 4]

theorem two_releases_two_holders : ∃ config :
    Configuration Op Op.Reply Shared BookCall (Except Error (Option String)),
      Reachable machine (BookCall.run (fun _ => .error (.new "invalid CIDR address")) "public")
        (fun _ _ => True) ⟨∅, 0⟩ config ∧ Holds "public" "203.0.113.10" "vm-b" config.past = true ∧
      Holds "public" "203.0.113.10" "vm-c" config.past = true := by
  obtain ⟨config, reached, both⟩ : ∃ config,
      Reachable machine (BookCall.run (fun _ => .error (.new "invalid CIDR address")) "public")
        (fun _ _ => True) ⟨∅, 0⟩ config ∧
        (Holds "public" "203.0.113.10" "vm-b" config.past &&
          Holds "public" "203.0.113.10" "vm-c" config.past) = true :=
    play_freely answer_exec
      (show ∀ move ∈ twoReleases, move.Legal machine by simp [twoReleases, Move.Legal])
      (by decide +kernel)
  rw [Bool.and_eq_true] at both
  exact ⟨config, reached, both⟩

end Infrastructure.Manager
