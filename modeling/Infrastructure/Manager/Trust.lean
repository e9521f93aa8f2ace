import Infrastructure.State.Store

/-! The block of platform certificates in a system trust bundle. -/

namespace Infrastructure.Manager

open List State

def trustBegin : Bytes := bytesOf "# BEGIN infra-agent trusted CAs\n"
def trustEnd : Bytes := bytesOf "# END infra-agent trusted CAs\n"

/-- The bundle without its platform block, if it has one. `bytes.Index` finds the first
occurrence. -/
def withoutBlock (bundle : Bytes) : Bytes :=
  match bundle.dropInfix? trustBegin with
  | none => bundle
  | some (before, _) =>
    match (bundle.drop before.length).dropInfix? trustEnd with
    | none => bundle
    | some (_, behind) => before ++ behind

/-- With a line end after it, unless it is empty or has one. -/
def terminated (bytes : Bytes) : Bytes :=
  if bytes = [] ∨ bytes.getLast? = some 10 then bytes else bytes ++ [10]

def spliceTrust (bundle pems : Bytes) : Bytes :=
  if pems = [] then withoutBlock bundle
  else terminated (withoutBlock bundle) ++ trustBegin ++ pems ++ trustEnd

section

variable {c : UInt8} {m xs s : Bytes}

theorem infix_of_fresh (fresh : c ∉ xs) (got : (c :: m) <:+: xs ++ s) : (c :: m) <:+: s := by
  induction xs with
  | nil => exact got
  | cons x xs ih =>
    rcases infix_cons_iff.mp got with first | later
    · exact absurd (.head _) ((cons_prefix_cons.mp first).1 ▸ fresh)
    · exact ih (fun mem => fresh (.tail _ mem)) later

/-- A marker whose first byte is not in the rest of it is found where it was put. -/
theorem dropInfix?_marker (fresh : c ∉ m) (clear : ¬(c :: m) <:+: xs) :
    (xs ++ ((c :: m) ++ s)).dropInfix? (c :: m) = some (xs, s) := by
  refine dropInfix?_eq_some_iff.mpr ⟨⟨_, (append_assoc _ _ _).symm, beq_self_eq_true _⟩,
    fun p i s' eq equal => ?_⟩
  obtain rfl := eq_of_beq equal
  by_contra short
  rw [append_assoc] at eq
  obtain ⟨t, rfl⟩ :=
    prefix_of_prefix_length_le (prefix_append p _) (eq ▸ prefix_append xs _) (by omega)
  rw [append_assoc, append_cancel_left_eq] at eq
  -- the earlier occurrence starts inside `xs`, with the byte that only starts the marker
  cases t with
  | nil => simp at short
  | cons a t =>
    simp only [cons_append, cons.injEq] at eq
    obtain ⟨rfl, rest⟩ := eq
    have shorter : ¬m <+: t := fun mem => clear
      ((cons_prefix_cons.mpr ⟨rfl, mem⟩).isInfix.trans (suffix_append p _).isInfix)
    obtain ⟨u, rfl⟩ :=
      (List.prefix_or_prefix_of_prefix (prefix_append m s') (rest ▸ prefix_append t _)).resolve_left
      shorter
    rw [append_assoc t u s', append_cancel_left_eq] at rest
    cases u with
    | nil => exact shorter (by simp)
    | cons b u => exact fresh (by simp_all)

end

theorem marker_begin : trustBegin = 35 :: trustBegin.tail ∧ 35 ∉ trustBegin.tail := by decide
theorem marker_end : trustEnd = 35 :: trustEnd.tail ∧ 35 ∉ trustEnd.tail := by decide

def block (pems : Bytes) : Bytes := if pems = [] then [] else trustBegin ++ pems ++ trustEnd

theorem withoutBlock_block {body pems : Bytes} (clear : ¬trustBegin <:+: body)
    (free : ¬trustEnd <:+: pems) :
    withoutBlock (body ++ block pems) = body := by
  by_cases empty : pems = []
  · rw [block, if_pos empty, append_nil, withoutBlock]
    split
    · rfl
    · next pre _ got =>
      obtain ⟨⟨i, eq, equal⟩, -⟩ := dropInfix?_eq_some_iff.mp got
      exact absurd ⟨pre, _, eq_of_beq equal ▸ eq.symm⟩ clear
  · have begins : (body ++ (trustBegin ++ (pems ++ trustEnd))).dropInfix? trustBegin =
        some (body, pems ++ trustEnd) := by
      rw [marker_begin.1] at clear ⊢
      exact dropInfix?_marker marker_begin.2 clear
    have ends : (trustBegin ++ pems ++ trustEnd).dropInfix? trustEnd =
        some (trustBegin ++ pems, []) := by
      have apart : ¬trustEnd <+: trustBegin ++ pems := by
        intro first
        have start := congrArg (take 3) (prefix_iff_eq_take.mp first)
        rw [take_take, take_append_of_le_length (by decide)] at start
        exact absurd start (by decide)
      rw [marker_end.1] at free apart ⊢
      refine (congrArg (dropInfix? · _) (by simp)).trans
        (dropInfix?_marker marker_end.2 fun got => ?_)
      rw [marker_begin.1] at got apart
      exact free (infix_of_fresh marker_begin.2 ((infix_cons_iff.mp got).resolve_left apart))
    rw [block, if_neg empty, append_assoc, withoutBlock, begins]
    dsimp only
    rw [drop_left, ← append_assoc, ends]
    exact append_nil body

theorem spliceTrust_block {body last pems : Bytes} (clear : ¬trustBegin <:+: body)
    (free : ¬trustEnd <:+: last) :
    spliceTrust (body ++ block last) pems = (if pems = [] then body else terminated body) ++
      block pems := by
  rw [spliceTrust, withoutBlock_block clear free, block]
  split
  · rw [append_nil]
  · simp only [append_assoc]

theorem terminated_cases (bytes : Bytes) :
    (terminated bytes = bytes ∨ terminated bytes = bytes ++ [10]) ∧ terminated
    (terminated bytes) = terminated bytes := by
  by_cases ends : bytes = [] ∨ bytes.getLast? = some 10
  · have eq : terminated bytes = bytes := if_pos ends
    exact ⟨.inl eq, congrArg terminated eq⟩
  · have eq : terminated bytes = bytes ++ [10] := if_neg ends
    rw [eq]
    exact ⟨.inr rfl, if_pos (.inr getLast?_concat)⟩

/-- The bundle as it was or with a line end, and then the block of a set, on a line of its own. -/
def Spliced (bundle last result : Bytes) : Prop :=
  ∃ body, (body = bundle ∨ body = bundle ++ [10]) ∧ (last ≠ [] → terminated body = body) ∧
    result = body ++ block last

section

variable {bundle last result pems : Bytes} (line : ¬trustBegin <:+: bundle ++ [10])
include line

theorem clear_of_kept {body : Bytes} (kept : body = bundle ∨ body = bundle ++ [10]) :
    ¬trustBegin <:+: body := by
  rcases kept with rfl | rfl
  · exact fun got => line (got.trans (prefix_append _ _).isInfix)
  · exact line

theorem Spliced.next (free : ¬trustEnd <:+: last)
    (spliced : Spliced bundle last result) : Spliced bundle pems (spliceTrust result pems) := by
  obtain ⟨body, kept, -, rfl⟩ := spliced
  rw [spliceTrust_block (clear_of_kept line kept) free]
  split
  · next empty => exact ⟨body, kept, absurd empty, rfl⟩
  · refine ⟨terminated body, ?_, fun _ => (terminated_cases body).2, rfl⟩
    rcases kept with rfl | rfl
    · exact (terminated_cases body).1
    · exact .inr (if_pos (.inr getLast?_concat))

theorem Spliced.again (free : ¬trustEnd <:+: last)
    (spliced : Spliced bundle last result) : spliceTrust result last = result := by
  obtain ⟨body, kept, ends, rfl⟩ := spliced
  rw [spliceTrust_block (clear_of_kept line kept) free]
  split
  · rfl
  · next filled => rw [ends filled]

theorem Spliced.foldl (sets : List Bytes) (free : ¬trustEnd <:+: last)
    (clean : ∀ pems ∈ sets, ¬trustEnd <:+: pems) (spliced : Spliced bundle last result) :
    Spliced bundle (sets.getLastD last) (sets.foldl spliceTrust result) := by
  induction sets generalizing last result with
  | nil => exact spliced
  | cons pems sets ih =>
    obtain ⟨first, clean⟩ := forall_mem_cons.mp clean
    rw [getLastD_cons]
    exact ih first clean (spliced.next line free)

end

theorem splices_of_line {bundle : Bytes} (line : ¬trustBegin <:+: bundle ++ [10])
    (sets : List Bytes) (clean : ∀ pems ∈ sets, ¬trustEnd <:+: pems) :
    Spliced bundle (sets.getLastD []) (sets.foldl spliceTrust bundle) ∧
      spliceTrust (sets.foldl spliceTrust bundle) (sets.getLastD []) =
        sets.foldl spliceTrust bundle := by
  have initial : Spliced bundle [] bundle :=
    ⟨bundle, .inl rfl, absurd rfl, (append_nil bundle).symm⟩
  have empty : ¬trustEnd <:+: [] := by decide
  have spliced := initial.foldl line sets empty clean
  refine ⟨spliced, spliced.again line ?_⟩
  cases last : sets.getLast? with
  | none => rwa [getLastD_eq_getLast?, last]
  | some pems =>
    rw [getLastD_eq_getLast?, last]
    exact clean pems (mem_of_getLast? last)

/-- A marker that the line end completes is at the end of the bundle. -/
theorem ends_in_marker {bundle : Bytes} (clear : ¬trustBegin <:+: bundle)
    (got : trustBegin <:+: bundle ++ [10]) :
    ∃ pre, bundle = pre ++ trustBegin.dropLast := by
  obtain ⟨pre, post, eq⟩ := got
  have lines : trustBegin = trustBegin.dropLast ++ [10] := by decide
  rcases eq_nil_or_concat post with rfl | ⟨front, last, rfl⟩
  · rw [append_nil, lines, ← append_assoc] at eq
    exact ⟨pre, (append_inj_left' eq rfl).symm⟩
  · rw [concat_eq_append, ← append_assoc] at eq
    exact absurd ⟨pre, front, append_inj_left' eq rfl⟩ clear

/-- The next pass takes the completed marker for the start of its block, and all from there with
it. -/
theorem marker_taken {pre : Bytes} (clear : ¬trustBegin <:+: pre ++ trustBegin.dropLast) :
    spliceTrust (spliceTrust (pre ++ trustBegin.dropLast) [1]) [1] ≠
      spliceTrust (pre ++ trustBegin.dropLast) [1] := by
  have ends : terminated (pre ++ trustBegin.dropLast) = pre ++ trustBegin := by
    have unended :
        ¬(pre ++ trustBegin.dropLast = [] ∨ (pre ++ trustBegin.dropLast).getLast? = some 10) := by
      rw [getLast?_append_of_ne_nil _ (by decide)]
      simp only [append_eq_nil_iff, not_or]
      exact ⟨fun empty => absurd empty.2 (by decide), by decide⟩
    rw [terminated, if_neg unended, append_assoc]
    rfl
  have first : spliceTrust (pre ++ trustBegin.dropLast) [1] = pre ++ block (trustBegin ++ [1]) := by
    have spliced : spliceTrust (pre ++ trustBegin.dropLast ++ block []) [1] = _ :=
      spliceTrust_block clear (by decide)
    rw [block, if_pos rfl, append_nil, if_neg (by decide), ends] at spliced
    rw [spliced, append_assoc]
    rfl
  have before : ¬trustBegin <:+: pre := fun got => clear (got.trans (prefix_append _ _).isInfix)
  rw [first, spliceTrust_block before (by decide), if_neg (by decide)]
  intro same
  have lengths := congrArg length same
  have block_length : (block [1]).length = 63 ∧ (block (trustBegin ++ [1])).length = 95 := by decide
  rw [length_append, length_append, block_length.1, block_length.2] at lengths
  have short : (terminated pre).length ≤ pre.length + 1 := by
    rcases (terminated_cases pre).1 with eq | eq <;> rw [eq] <;> simp
  omega

/-- The bundles without a begin marker into which sets can be spliced over and over: exactly those
that have none with a line end after them either. -/
theorem splices_reversible_iff (bundle : Bytes) : (¬trustBegin <:+: bundle ∧ ∀ sets : List Bytes,
      (∀ pems ∈ sets, ¬trustEnd <:+: pems) →
        Spliced bundle (sets.getLastD []) (sets.foldl spliceTrust bundle) ∧
        spliceTrust (sets.foldl spliceTrust bundle) (sets.getLastD []) =
          sets.foldl spliceTrust bundle) ↔
    ¬trustBegin <:+: bundle ++ [10] := by
  constructor
  · intro ⟨clear, reversible⟩ got
    obtain ⟨pre, rfl⟩ := ends_in_marker clear got
    exact marker_taken clear (reversible [[1]] (by decide)).2
  · intro line
    exact ⟨fun got => line (got.trans (prefix_append _ _).isInfix), splices_of_line line⟩

/-- The line end that a bundle was missing completes a marker, and the next pass takes it for a
block. -/
theorem line_end_completes_marker :
    ¬trustBegin <:+: trustBegin.dropLast ∧ ¬trustEnd <:+: trustBegin.dropLast ∧
      spliceTrust (spliceTrust trustBegin.dropLast [1]) [1] ≠
        spliceTrust trustBegin.dropLast [1] := by
  decide

end Infrastructure.Manager
