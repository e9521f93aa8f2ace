import Mathlib.Data.List.Infix

/-! Slash-separated path text and its lexical cleaning: empty and `.` segments
are dropped and `..` takes back the segment before it. -/

namespace Infrastructure.Text

open List

/-- The characters of ASCII text, which are its bytes. -/
def ascii (text : String) : List Char :=
  text.toByteArray.data.toList.map fun byte => Char.ofNat byte.toNat

/-- A segment that names an entry of a directory. -/
def Plain (seg : List Char) : Prop :=
  seg ≠ [] ∧ '/' ∉ seg ∧ seg ≠ ['.'] ∧ seg ≠ ['.', '.']

instance (seg : List Char) : Decidable (Plain seg) := by unfold Plain; infer_instance

@[ext] structure Name where
  text : List Char
  plain : Plain text
  deriving DecidableEq

/-- Where a cleaned path starts: at the root, or some levels above the working directory. -/
inductive Anchor where
  | root
  | above (levels : Nat)
  deriving DecidableEq

structure Path where
  anchor : Anchor
  names : List Name
  deriving DecidableEq

namespace Path

def child (path : Path) (name : Name) : Path := ⟨path.anchor, path.names ++ [name]⟩

def descend (path : Path) (names : List Name) : Path := ⟨path.anchor, path.names ++ names⟩

def parent (path : Path) : Path :=
  if path.names = [] then
    match path.anchor with
    | .root => path
    | .above levels => ⟨.above (levels + 1), []⟩
  else ⟨path.anchor, path.names.dropLast⟩

def enter (path : Path) (seg : List Char) : Path :=
  if plain : Plain seg then path.child ⟨seg, plain⟩
  else if seg = ['.', '.'] then path.parent
  else path

def walk (path : Path) (segments : List (List Char)) : Path := segments.foldl enter path

@[simp] theorem descend_nil (path : Path) : path.descend [] = path := by
  simp [descend]

@[simp] theorem descend_descend (path : Path) (first snd : List Name) :
    (path.descend first).descend snd = path.descend (first ++ snd) := by
  simp [descend]

theorem child_eq_descend (path : Path) (name : Name) : path.child name = path.descend [name] := rfl

theorem descend_inj {path : Path} {first snd : List Name} : path.descend first = path.descend snd ↔
    first = snd := by
  simp [descend]

@[simp] theorem parent_child (path : Path) (name : Name) : (path.child name).parent = path := by
  simp [parent, child]

@[simp] theorem child_inj {first snd : Path} {name name' : Name} :
    first.child name = snd.child name' ↔ first = snd ∧ name = name' := by
  constructor
  · intro eq
    have last : (first.child name).names.getLast? = (snd.child name').names.getLast? := by
      rw [eq]
    have parents : (first.child name).parent = (snd.child name').parent := by
      rw [eq]
    rw [parent_child, parent_child] at parents
    exact ⟨parents, by simpa [child] using last⟩
  · rintro ⟨rfl, rfl⟩
    rfl

theorem child_ne_self (path : Path) (name : Name) : path.child name ≠ path := by
  intro eq
  have lengths := congrArg (·.names.length) eq
  simp [child] at lengths

theorem enter_name (path : Path) (name : Name) : path.enter name.text = path.child name := by
  rw [enter, dif_pos name.plain]

theorem walk_append (path : Path) (first snd : List (List Char)) :
    path.walk (first ++ snd) = (path.walk first).walk snd := by
  rw [walk, foldl_append]
  rfl

theorem walk_names (path : Path) (names : List Name) :
    path.walk (names.map Name.text) = path.descend names := by
  induction names generalizing path with
  | nil => exact (descend_nil path).symm
  | cons name names ih =>
    show (path.enter name.text).walk (names.map Name.text) = _
    rw [enter_name, child_eq_descend, ih, descend_descend, singleton_append]

theorem enter_root {path : Path} (rooted : path.anchor = .root) (seg : List Char) :
    (path.enter seg).anchor = .root := by
  simp only [enter, child, parent]
  split
  · exact rooted
  · split
    · split
      · rw [rooted]
        exact rooted
      · exact rooted
    · exact rooted

theorem walk_root {path : Path} (rooted : path.anchor = .root) (segments : List (List Char)) :
    (path.walk segments).anchor = .root := by
  induction segments generalizing path with
  | nil => exact rooted
  | cons seg segments ih => exact ih (enter_root rooted seg)

end Path

def segments (text : List Char) : List (List Char) := text.splitOn '/'

theorem segments_join (first snd : List Char) :
    segments (first ++ '/' :: snd) = segments first ++ segments snd :=
  splitOn_append_cons_self first snd

theorem segments_plain {seg : List Char} (plain : Plain seg) : segments seg = [seg] :=
  splitOn_eq_singleton plain.2.1

def origin (text : List Char) : Path :=
  ⟨if text.head? = some '/' then .root else .above 0, []⟩

/-- `filepath.Clean`, on a system whose separator is the slash. -/
def clean (text : List Char) : Path := (origin text).walk (segments text)

/-- `filepath.Join`: empty leading elements are ignored. -/
def join (elements : List (List Char)) : Path :=
  clean (['/'].intercalate (elements.dropWhile (· = [])))

theorem clean_slash (text : List Char) :
    clean ('/' :: text) = (⟨.root, []⟩ : Path).walk (segments text) := by
  have split : segments ('/' :: text) = [] :: segments text := segments_join [] text
  rw [clean, split]
  rfl

variable {first : List Char}

theorem origin_append (ne : first ≠ []) (snd : List Char) :
    origin (first ++ snd) = origin first := by
  rw [origin, origin, List.head?_append_of_ne_nil first ne]

theorem clean_append (ne : first ≠ []) (snd : List Char) :
    clean (first ++ '/' :: snd) = (clean first).walk (segments snd) := by
  rw [clean, origin_append ne, segments_join, Path.walk_append, clean]

@[simp] theorem join_nil_cons (rest : List (List Char)) : join ([] :: rest) = join rest := by
  simp [join]

theorem join_singleton (element : List Char) : join [element] = clean element := by
  by_cases empty : element = []
  · subst empty
    rfl
  · simp [join, empty]

theorem join_cons_cons (ne : first ≠ []) (snd : List Char) (rest : List (List Char)) :
    join (first :: snd :: rest) =
      (clean first).walk (segments (['/'].intercalate (snd :: rest))) := by
  rw [join, dropWhile_cons_of_neg (by simpa using ne), intercalate_cons_cons,
    append_assoc, singleton_append, clean_append ne]

def namesText (names : List Name) : List Char := ['/'].intercalate (names.map Name.text)

variable {names : List Name}

theorem segments_namesText (ne : names ≠ []) :
    segments (namesText names) = names.map Name.text := by
  apply splitOn_intercalate
  · intro seg mem
    obtain ⟨name, -, rfl⟩ := mem_map.mp mem
    exact name.plain.2.1
  · simpa using ne

theorem namesText_cons (first : Name) (others : List Name) :
    ∃ rest, namesText (first :: others) = first.text ++ rest := by
  cases others with
  | nil => exact ⟨[], by simp [namesText]⟩
  | cons snd others =>
    refine ⟨['/'] ++ namesText (snd :: others), ?_⟩
    rw [namesText, map_cons, map_cons, intercalate_cons_cons, append_assoc]
    rfl

theorem Name.head_ne_slash (name : Name) : name.text.head? ≠ some '/' := by
  intro slash
  exact name.plain.2.1 (mem_of_mem_head? slash)

theorem namesText_ne_nil (ne : names ≠ []) : namesText names ≠ [] := by
  obtain ⟨first, others, rfl⟩ := exists_cons_of_ne_nil ne
  obtain ⟨rest, shape⟩ := namesText_cons first others
  rw [shape]
  exact append_ne_nil_of_left_ne_nil first.plain.1 rest

theorem namesText_ne_dot (names : List Name) : namesText names ≠ ['.'] := by
  intro dot
  by_cases empty : names = []
  · subst empty
    cases dot
  · have split := segments_namesText empty
    have seen : ['.'] ∈ names.map Name.text := by
      rw [← split, dot]
      exact mem_singleton_self ['.']
    obtain ⟨name, -, text⟩ := mem_map.mp seen
    exact name.plain.2.2.1 text

theorem origin_namesText (ne : names ≠ []) : origin (namesText names) = ⟨.above 0, []⟩ := by
  obtain ⟨first, others, rfl⟩ := exists_cons_of_ne_nil ne
  obtain ⟨rest, shape⟩ := namesText_cons first others
  rw [shape, origin_append first.plain.1, origin, if_neg first.head_ne_slash]

/-- Joining the text of a cleaned relative path descends by its names. -/
theorem join_namesText (base : List Char) (ne : names ≠ []) :
    join [base, namesText names] = (clean base).descend names := by
  by_cases empty : base = []
  · subst empty
    rw [join_nil_cons, join_singleton, clean, origin_namesText ne, segments_namesText ne,
      Path.walk_names]
    rfl
  · rw [join_cons_cons empty, intercalate_singleton, segments_namesText ne, Path.walk_names]

def Path.render (path : Path) : List Char :=
  match path.anchor, path.names with
  | .root, names => '/' :: namesText names
  | .above 0, [] => ['.']
  | .above levels, names =>
    ['/'].intercalate (List.replicate levels ['.', '.'] ++ names.map Name.text)

theorem walk_parents (lv start : Nat) :
    (⟨.above start, []⟩ : Path).walk (List.replicate lv ['.', '.']) =
    ⟨.above (start + lv), []⟩ := by
  induction lv generalizing start with
  | zero => rfl
  | succ lv ih =>
    have up : (⟨.above start, []⟩ : Path).enter ['.', '.'] = ⟨.above (start + 1), []⟩ := by
      simp [Path.enter, Path.parent, Plain]
    show ((⟨.above start, []⟩ : Path).enter ['.', '.']).walk (List.replicate lv ['.', '.']) = _
    rw [up, ih, Nat.add_right_comm, Nat.add_assoc]

theorem clean_namesText (names : List Name) : clean ('/' :: namesText names) = ⟨.root, names⟩ := by
  rw [clean_slash]
  by_cases empty : names = []
  · subst empty
    rfl
  · rw [segments_namesText empty, Path.walk_names]
    rfl

theorem clean_climbing (lv : Nat) (names : List Name) :
    clean (['/'].intercalate (List.replicate (lv + 1) ['.', '.'] ++ names.map Name.text)) =
      ⟨.above (lv + 1), names⟩ := by
  set segs := List.replicate (lv + 1) ['.', '.'] ++ names.map Name.text with shape
  have noSlash : ∀ seg ∈ segs, '/' ∉ seg := by
    intro seg mem
    rcases mem_append.mp mem with dots | named
    · rw [eq_of_mem_replicate dots]
      decide
    · obtain ⟨name, -, rfl⟩ := mem_map.mp named
      exact name.plain.2.1
  have split : segments (['/'].intercalate segs) = segs :=
    splitOn_intercalate '/' noSlash (by simp [shape])
  have start : origin (['/'].intercalate segs) = ⟨.above 0, []⟩ := by
    have dotted : (['/'].intercalate segs).head? = some '.' := by
      rw [shape, replicate_succ, cons_append]
      cases List.replicate lv ['.', '.'] ++ names.map Name.text with
      | nil => rfl
      | cons snd others => rfl
    rw [origin, dotted]
    rfl
  rw [clean, start, split, Path.walk_append, walk_parents, Path.walk_names, Nat.zero_add]
  rfl

theorem clean_render (path : Path) : clean path.render = path := by
  obtain ⟨anchor, names⟩ := path
  rcases anchor with _ | _ | levels
  · exact clean_namesText names
  · cases names with
    | nil => rfl
    | cons name names =>
      have ne : name :: names ≠ [] := cons_ne_nil _ _
      show clean (namesText (name :: names)) = _
      rw [clean, origin_namesText ne, segments_namesText ne, Path.walk_names]
      rfl
  · exact clean_climbing levels names

theorem render_ne_nil (path : Path) : path.render ≠ [] := by
  intro empty
  have again := clean_render path
  rw [empty] at again
  subst again
  cases empty

/-- The segments of the text of a cleaned path before its names. -/
def lead : Anchor → List (List Char)
  | .root => [[]]
  | .above levels => List.replicate levels ['.', '.']

theorem segments_render {path : Path} (named : path.names ≠ []) :
    segments path.render = lead path.anchor ++ path.names.map Name.text := by
  obtain ⟨anchor, names⟩ := path
  cases anchor with
  | root =>
    show segments ([] ++ '/' :: namesText names) = _
    rw [segments_join, segments_namesText named]
    rfl
  | above lv =>
    have text : Path.render ⟨.above lv, names⟩ =
        ['/'].intercalate (List.replicate lv ['.', '.'] ++ names.map Name.text) := by
      cases lv with
      | zero =>
        cases names with
        | nil => exact absurd rfl named
        | cons name names => rfl
      | succ lv => rfl
    rw [text]
    apply splitOn_intercalate
    · intro seg seen
      rcases mem_append.mp seen with dots | text
      · rw [eq_of_mem_replicate dots]
        decide
      · obtain ⟨name, -, rfl⟩ := mem_map.mp text
        exact name.plain.2.1
    · simp [show names ≠ [] from named]

/-- `filepath.Join` as text. -/
def joinText (elements : List (List Char)) : List Char := (join elements).render

theorem clean_joinText (elements : List (List Char)) : clean (joinText elements) = join elements :=
  clean_render _

/-- Joining to text that is already clean enters the segments one after the other. -/
theorem join_render (path : Path) (text : List Char) :
    join [path.render, text] = path.walk (segments text) := by
  rw [join_cons_cons (render_ne_nil path), intercalate_singleton, clean_render]

def StrictlyBelow (base path : Path) : Prop := ∃ names, names ≠ [] ∧ path = base.descend names

/-- The text of a path begins with that of the base. -/
def AtOrBelow (base path : Path) : Prop := ∃ names, path = base.descend names

variable {base path : Path}

theorem atOrBelow_iff : AtOrBelow base path ↔
    path.anchor = base.anchor ∧ base.names <+: path.names := by
  constructor
  · rintro ⟨names, rfl⟩
    exact ⟨rfl, prefix_append _ _⟩
  · rintro ⟨anchors, names, seen⟩
    refine ⟨names, ?_⟩
    rw [Path.descend, ← anchors, seen]

instance (base path : Path) : Decidable (AtOrBelow base path) := decidable_of_iff' _ atOrBelow_iff

theorem StrictlyBelow.atOrBelow (below : StrictlyBelow base path) : AtOrBelow base path := by
  obtain ⟨names, -, eq⟩ := below
  exact ⟨names, eq⟩

theorem AtOrBelow.strictly (below : AtOrBelow base path) (differs : path ≠ base) :
    StrictlyBelow base path := by
  obtain ⟨names, rfl⟩ := below
  refine ⟨names, ?_, rfl⟩
  rintro rfl
  exact differs (Path.descend_nil base)

theorem AtOrBelow.refl (path : Path) : AtOrBelow path path := ⟨[], (Path.descend_nil path).symm⟩

theorem StrictlyBelow.trans {base path t : Path} (below : StrictlyBelow base path)
    (further : AtOrBelow path t) : StrictlyBelow base t := by
  obtain ⟨names, more, rfl⟩ := below
  obtain ⟨others, rfl⟩ := further
  exact ⟨names ++ others, by simp [more], Path.descend_descend base names others⟩

theorem StrictlyBelow.sibling {base dir : Path} {name : Name}
    (below : StrictlyBelow base (dir.child name))
    (other : Name) : StrictlyBelow base (dir.child other) := by
  obtain ⟨names, more, eq⟩ := below
  obtain ⟨init, last, rfl⟩ : ∃ init last, names = init ++ [last] :=
    ⟨names.dropLast, names.getLast more, (dropLast_append_getLast more).symm⟩
  have shape : dir.child name = (base.descend init).child last := by
    rw [eq, Path.child_eq_descend, Path.descend_descend]
  obtain ⟨rfl, -⟩ := Path.child_inj.mp shape
  exact ⟨init ++ [other], by simp, by rw [Path.child_eq_descend, Path.descend_descend]⟩

theorem strictlyBelow_iff : StrictlyBelow base path ↔ AtOrBelow base path ∧ path ≠ base := by
  constructor
  · intro below
    refine ⟨below.atOrBelow, ?_⟩
    rintro rfl
    obtain ⟨names, more, eq⟩ := below
    have lengths := congrArg (·.names.length) eq
    simp [Path.descend, more] at lengths
  · rintro ⟨below, differs⟩
    exact below.strictly differs

instance (base path : Path) : Decidable (StrictlyBelow base path) :=
  decidable_of_iff' _ strictlyBelow_iff

theorem atOrBelow_descend {first snd : List Name} :
    AtOrBelow (base.descend first) (base.descend snd) ↔ first <+: snd := by
  rw [atOrBelow_iff]
  exact ⟨fun below => (prefix_append_right_inj _).mp below.2,
    fun front => ⟨rfl, (prefix_append_right_inj _).mpr front⟩⟩

theorem join_name (base : List Char) (name : Name) :
    join [base, name.text] = (clean base).child name := by
  have named : namesText [name] = name.text := by simp [namesText]
  rw [← named, join_namesText base (cons_ne_nil _ _)]
  rfl

theorem join_name_cons (base : List Char) (name : Name) (text : List Char) :
    join [base, name.text, text] = ((clean base).child name).walk (segments text) := by
  by_cases empty : base = []
  · subst empty
    have first := join_name [] name
    rw [join_nil_cons, join_singleton] at first
    rw [join_nil_cons, join_cons_cons name.plain.1, intercalate_singleton, first]
  · have joined : ['/'].intercalate [name.text, text] = name.text ++ '/' :: text := by
      simp [intercalate_cons_cons]
    rw [join_cons_cons empty, joined, segments_join, Path.walk_append, segments_plain name.plain]
    show (((clean base).enter name.text).walk _) = _
    rw [Path.enter_name]

theorem segments_cons (c : Char) (text : List Char) : segments (c :: text) =
      if c = '/' then [] :: segments text else (segments text).modifyHead (List.cons c) := by
  have split := splitOnP_cons_eq_if_modifyHead (p := (· == '/')) c text
  simpa [segments, List.splitOn] using split

theorem segments_suffix (text : List Char) {suffix : List Char} (within : '/' ∉ suffix) :
    ∃ front last, segments text = front ++ [last] ∧
      segments (text ++ suffix) = front ++ [last ++ suffix] ∧ '/' ∉ last := by
  induction text with
  | nil => exact ⟨[], [], rfl, splitOn_eq_singleton within, not_mem_nil⟩
  | cons c text ih =>
    obtain ⟨front, last, split, suffixed, noSlash⟩ := ih
    rw [cons_append, segments_cons, segments_cons, split, suffixed]
    by_cases slash : c = '/'
    · exact ⟨[] :: front, last, by simp [slash], by simp [slash], noSlash⟩
    · cases front with
      | nil =>
        refine ⟨[], c :: last, by simp [slash], by simp [slash], ?_⟩
        simp [noSlash, Ne.symm slash]
      | cons first front =>
        exact ⟨(c :: first) :: front, last, by simp [slash], by simp [slash], noSlash⟩

/-- A longer text leads to another name of the same directory, unless the suffix is too short. -/
theorem walk_suffix (base : Path) (text : List Char) :
    ∃ (dir : Path) (last : List Char), ∀ suffix : List Char, '/' ∉ suffix → 3 ≤ suffix.length →
      ∃ plain, base.walk (segments (text ++ suffix)) = dir.child ⟨last ++ suffix, plain⟩ := by
  obtain ⟨front, last, split, -, noSlash⟩ := segments_suffix text (not_mem_nil (a := '/'))
  refine ⟨base.walk front, last, fun suffix within long => ?_⟩
  obtain ⟨front', last', split', suffixed, -⟩ := segments_suffix text within
  obtain ⟨rfl, ends⟩ := append_inj' (split.symm.trans split') rfl
  cases ends
  have plain : Plain (last ++ suffix) := by
    have size : 3 ≤ (last ++ suffix).length := by
      rw [length_append]
      omega
    refine ⟨ne_nil_of_length_pos (by omega), by simp [noSlash, within], ?_, ?_⟩
    all_goals
      intro dots
      rw [dots] at size
      exact absurd size (by decide)
  refine ⟨plain, ?_⟩
  rw [suffixed, Path.walk_append]
  exact Path.enter_name _ ⟨_, plain⟩

theorem clean_suffix (path : Path) (name : Name) {suffix : List Char} (within : '/' ∉ suffix)
    (plain : Plain (name.text ++ suffix)) :
    clean ((path.child name).render ++ suffix) = path.child ⟨name.text ++ suffix, plain⟩ := by
  obtain ⟨front, last, split, suffixed, -⟩ := segments_suffix (path.child name).render within
  have named : (path.child name).names ≠ [] := by simp [Path.child]
  have ends : last = name.text := by
    have seen := segments_render named
    rw [split, Path.child, map_append, map_singleton, ← append_assoc] at seen
    exact (append_inj' seen rfl).2 |> singleton_inj.mp
  have leads : (origin (path.child name).render).walk front = path := by
    have whole := clean_render (path.child name)
    rw [clean, split, Path.walk_append, ends] at whole
    change ((origin (path.child name).render).walk front).enter name.text = _ at whole
    rw [Path.enter_name] at whole
    exact (Path.child_inj.mp whole).1
  rw [clean, origin_append (render_ne_nil _), suffixed, Path.walk_append, leads, ends]
  exact Path.enter_name path ⟨name.text ++ suffix, plain⟩

/-- The place that a relative path leads to from a directory. -/
def Path.follow (dir : Path) (levels : Nat) (names : List Name) : Path :=
  (Path.parent^[levels] dir).descend names

/-- A text, cleaned as a relative path. -/
def relative (text : List Char) : Path := (⟨.above 0, []⟩ : Path).walk (segments text)

theorem follow_enter (dir : Path) (lv : Nat) (names : List Name) (seg : List Char) :
    ∃ levels' names', (⟨.above lv, names⟩ : Path).enter seg = ⟨.above levels', names'⟩ ∧
      (dir.follow lv names).enter seg = dir.follow levels' names' := by
  by_cases plain : Plain seg
  · refine ⟨lv, names ++ [⟨seg, plain⟩], ?_, ?_⟩
    · rw [Path.enter, dif_pos plain]
      rfl
    · rw [Path.enter, dif_pos plain, Path.follow, Path.follow, Path.child_eq_descend,
        Path.descend_descend]
  · by_cases climbs : seg = ['.', '.']
    · simp only [Path.enter, dif_neg plain, if_pos climbs]
      by_cases empty : names = []
      · subst empty
        refine ⟨lv + 1, [], by simp [Path.parent], ?_⟩
        rw [Path.follow, Path.follow, Path.descend_nil, Path.descend_nil,
          Function.iterate_succ_apply']
      · refine ⟨lv, names.dropLast, by simp [Path.parent, empty], ?_⟩
        simp [Path.follow, Path.parent, Path.descend, empty, dropLast_append_of_ne_nil]
    · exact ⟨lv, names, by simp [Path.enter, plain, climbs], by simp [Path.enter, plain, climbs]⟩

/-- Entering the segments of a text from a directory follows the text's relative path. -/
theorem walk_relative (dir : Path) (text : List Char) :
    ∃ lv names, relative text = ⟨.above lv, names⟩ ∧
      dir.walk (segments text) = dir.follow lv names := by
  have along (path : List (List Char)) (lv : Nat) (names : List Name) :
      ∃ levels' names', (⟨.above lv, names⟩ : Path).walk path = ⟨.above levels', names'⟩ ∧
        (dir.follow lv names).walk path = dir.follow levels' names' := by
    induction path generalizing lv names with
    | nil => exact ⟨lv, names, rfl, rfl⟩
    | cons seg path ih =>
      obtain ⟨levels', names', entered, followed⟩ := follow_enter dir lv names seg
      obtain ⟨levels'', names'', walked, led⟩ := ih levels' names'
      refine ⟨levels'', names'', ?_, ?_⟩
      · show ((⟨.above lv, names⟩ : Path).enter seg).walk path = _
        rw [entered, walked]
      · show ((dir.follow lv names).enter seg).walk path = _
        rw [followed, led]
  obtain ⟨lv, names, walked, led⟩ := along (segments text) 0 []
  rw [Path.follow, Function.iterate_zero_apply, Path.descend_nil] at led
  exact ⟨lv, names, walked, led⟩

/-- The names that a text leads to in a directory called `name`, wherever it is: the text does not
climb out, or comes straight back. -/
def residual (name : Name) (text : List Char) : Option (List Name) :=
  match relative text with
  | ⟨.above 0, names⟩ => some names
  | ⟨.above 1, first :: names⟩ => if first = name then some names else none
  | _ => none

theorem walk_residual {name : Name} {text : List Char} (got : residual name text = some names)
    (parent : Path) :
    (parent.child name).walk (segments text) = (parent.child name).descend names := by
  obtain ⟨lv, walked, shape, led⟩ := walk_relative (parent.child name) text
  rw [residual, shape] at got
  match lv, walked, got with
  | 0, walked, got =>
    cases got
    exact led
  | 1, first :: rest, got =>
    change (if first = name then some rest else none) = some names at got
    split at got
    · next eq =>
      cases got
      subst eq
      rw [led, Path.follow, Function.iterate_one, Path.parent_child]
      simp [Path.child, Path.descend]
    · cases got

/-- A name of letters only. -/
def Name.Lettered (name : Name) : Prop := ∀ char ∈ name.text, char = 'a'

theorem exists_other_name (names : List Name) : ∃ name : Name, name ∉ names ∧ name.Lettered := by
  have plain (extra : Nat) : Plain (List.replicate (extra + 3) 'a') := by
    refine ⟨by simp, ?_, ?_, ?_⟩
    · intro slash
      cases eq_of_mem_replicate slash
    all_goals
      intro eq
      have lengths := congrArg List.length eq
      simp at lengths
  have bounded : ∃ limit, ∀ name ∈ names, name.text.length < limit := by
    induction names with
    | nil => exact ⟨0, by simp⟩
    | cons name names ih =>
      obtain ⟨limit, below⟩ := ih
      refine ⟨max limit (name.text.length + 1), ?_⟩
      intro other listed
      rcases mem_cons.mp listed with rfl | listed
      · omega
      · exact Nat.lt_of_lt_of_le (below other listed) (Nat.le_max_left _ _)
  obtain ⟨limit, below⟩ := bounded
  refine ⟨⟨_, plain limit⟩, ?_, fun _ => eq_of_mem_replicate⟩
  intro listed
  have short := below _ listed
  rw [length_replicate] at short
  omega

theorem iterate_parent (anchor : Anchor) (front back : List Name) :
    Path.parent^[back.length] ⟨anchor, front ++ back⟩ = ⟨anchor, front⟩ := by
  induction back using List.reverseRecOn with
  | nil => simp
  | append_singleton back name ih =>
    rw [length_append, length_singleton, Function.iterate_succ_apply, ← append_assoc]
    have up : Path.parent ⟨anchor, front ++ back ++ [name]⟩ = ⟨anchor, front ++ back⟩ :=
      Path.parent_child ⟨anchor, front ++ back⟩ name
    rw [up, ih]

theorem residual_of_below {name : Name} {text : List Char}
    (below : ∀ parent : Path, (∀ other ∈ parent.names, other.Lettered) →
      StrictlyBelow (parent.child name) ((parent.child name).walk (segments text))) :
    ∃ names, residual name text = some names ∧ names ≠ [] := by
  obtain ⟨levels, names, shape, -⟩ := walk_relative ⟨.root, []⟩ text
  have leads (parent : Path) (lettered : ∀ other ∈ parent.names, other.Lettered) :
      StrictlyBelow (parent.child name) ((parent.child name).follow levels names) := by
    obtain ⟨levels', names', shape', led⟩ := walk_relative (parent.child name) text
    rw [shape] at shape'
    cases shape'
    rw [← led]
    exact below parent lettered
  rw [residual, shape]
  match levels, leads with
  | 0, leads =>
    refine ⟨names, rfl, ?_⟩
    rintro rfl
    apply (strictlyBelow_iff.mp (leads ⟨.root, []⟩ nofun)).2
    exact Path.descend_nil _
  | 1, leads =>
    obtain ⟨rest, more, eq⟩ := leads ⟨.root, []⟩ nofun
    rw [Path.follow, Function.iterate_one, Path.parent_child] at eq
    have seen : names = name :: rest := congrArg Path.names eq
    subst seen
    exact ⟨rest, by simp, more⟩
  | levels + 2, leads =>
    -- below a chain of directories of another name the text cannot come back in
    obtain ⟨other, gone, lettered⟩ := exists_other_name names
    exfalso
    obtain ⟨rest, more, eq⟩ := leads ⟨.root, List.replicate (levels + 2) other⟩
      fun _ mem => eq_of_mem_replicate mem ▸ lettered
    have climbed : Path.parent^[levels + 2]
        (Path.child ⟨.root, List.replicate (levels + 2) other⟩ name) = ⟨.root, [other]⟩ := by
      have up := iterate_parent .root [other] (List.replicate (levels + 1) other ++ [name])
      rw [length_append, length_replicate, length_singleton] at up
      exact up
    rw [Path.follow, climbed] at eq
    have seen : names = List.replicate (levels + 1) other ++ [name] ++ rest := by
      have whole := congrArg Path.names eq
      simpa [Path.descend, Path.child, replicate_succ] using whole
    apply gone
    rw [seen, replicate_succ]
    simp

end Infrastructure.Text
