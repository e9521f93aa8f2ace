import Mathlib.Data.List.TakeWhile
import Infrastructure.Httpsrv.Server

/-! The client's requests for one record, and the record that the router takes them to. The base URL
is a scheme and a host; what follows it is the text here. -/

namespace Infrastructure.Client

open Domain Text Net Httpsrv List

inductive Method where
  | get
  | put
  | delete
  deriving DecidableEq

def isControl (char : Char) : Bool := char.toNat < 0x20 || char.toNat == 0x7f

/-- `url.Parse`: the path as it is written and decoded, without the query and the fragment. -/
def parse (url : List Char) : Option (List Char × List Char) :=
  let text := url.takeWhile (· ≠ '#')
  let raw := url.takeWhile fun char => char ≠ '#' ∧ char ≠ '?'
  if text.any isControl ∨ pathUnescape (url.drop (text.length + 1)) = none then none
  else (pathUnescape raw).map fun path => (raw, path)

def itemURL (kind : Kind) (uid : List Char) : List Char :=
  apiBase.toList ++ '/' :: (kind.text.toList ++ '/' :: uid)

/-- The value of `uid` in the routes that `Handler.Register` mounts. -/
def pathValue (kind : Kind) : List (List Char) → Option (List Char)
  | [api, v, name, uid] =>
    if api = "api".toList ∧ v = "v1".toList ∧ name = kind.text.toList ∧ uid ≠ [] ∧ uid ≠ ['/'] then
      some uid
    else none
  | _ => none

/-- The handler that a request for a uid comes to, and the uid it is given. The two functions are
those of `net/url`: a path that is not valid as it is written is encoded again, which leaves its
slashes and dots and is undone by the router. A path that is not clean is answered with a redirect,
after which the client asks for the clean text with GET. -/
def reached (validEncoded : List Char → Bool) (escape : List Char → List Char) (kind : Kind)
    (method : Method) (uid : List Char) : Option (Method × List Char) :=
  match parse (itemURL kind uid) with
  | none => none
  | some (raw, path) =>
    let valid := validEncoded raw
    let escaped := if valid then raw else path
    if cleanPath escaped = escaped then
      (pathValue kind (if valid then routeSegments raw else segments path.tail)).map (method, ·)
    else (pathValue kind (segments (cleanPath (if valid then raw else escape path)).tail)).map
      (.get, ·)

/-- A character that stands for itself in the path of a URL. -/
abbrev Literal (char : Char) : Prop :=
  (char ≠ '#' ∧ char ≠ '?') ∧ isControl char = false ∧ char ≠ '%'

theorem parse_literal {url : List Char} (literal : ∀ char ∈ url, Literal char) :
    parse url = some (url, url) := by
  have text : url.takeWhile (· ≠ '#') = url := by
    rw [takeWhile_eq_self_iff]
    intro char mem
    simpa using (literal char mem).1.1
  have raw : (url.takeWhile fun char => char ≠ '#' ∧ char ≠ '?') = url := by
    rw [takeWhile_eq_self_iff]
    intro char mem
    simpa using (literal char mem).1
  rw [parse, text, raw, if_neg, pathUnescape_self fun mem => (literal _ mem).2.2 rfl]
  · rfl
  · rw [drop_eq_nil_of_le (by omega), not_or, Bool.not_eq_true, any_eq_false]
    exact ⟨fun char mem => by simp [(literal char mem).2.1], nofun⟩

theorem parse_eq_some {url raw path : List Char} (got : parse url = some (raw, path)) :
    pathUnescape raw = some path ∧ raw <+: url ∧
      (raw = url → '%' ∉ url → ∀ char ∈ url, Literal char) := by
  rw [parse] at got
  split at got
  · cases got
  · next ok =>
    obtain ⟨dec, decodes, eq⟩ := Option.map_eq_some_iff.mp got
    cases eq
    refine ⟨decodes, takeWhile_prefix _, ?_⟩
    intro whole unencoded char mem
    simp only [takeWhile_eq_self_iff, decide_eq_true_eq] at whole
    have text : url.takeWhile (· ≠ '#') = url := by
      rw [takeWhile_eq_self_iff]
      intro char mem
      simpa using (whole char mem).1
    rw [text, not_or, Bool.not_eq_true, any_eq_false] at ok
    exact ⟨whole char mem, Bool.eq_false_iff.mpr (ok.1 char mem), fun eq => unencoded (eq ▸ mem)⟩

section

variable {kind : Kind} {uid : List Char}

theorem itemURL_eq : itemURL kind uid = '/' :: ['/'].intercalate
    ["api".toList, "v1".toList, kind.text.toList, uid] := by
  simp [itemURL, apiBase, List.intercalate]

theorem segments_itemURL :
    segments (itemURL kind uid).tail = ["api".toList, "v1".toList, kind.text.toList] ++
      segments uid := by
  simp only [itemURL_eq, tail_cons, intercalate_cons_cons, intercalate_singleton, append_assoc,
    singleton_append, segments_join, segments_plain kind.text_plain]
  rw [segments_plain (by decide), segments_plain (by decide)]
  rfl

theorem dots_unclean : cleanPath (itemURL kind ['.']) ≠ itemURL kind ['.'] ∧
    cleanPath (itemURL kind ['.', '.']) ≠ itemURL kind ['.', '.'] := by
  cases kind <;> decide +kernel

theorem cleanPath_itemURL (plain : Plain uid) :
    cleanPath (itemURL kind uid) = itemURL kind uid := by
  let names : List Name := [⟨"api".toList, by decide⟩, ⟨"v1".toList, by decide⟩, kind.name,
    ⟨uid, plain⟩]
  have named : itemURL kind uid = '/' :: namesText names := itemURL_eq
  have last : (itemURL kind uid).getLast? ≠ some '/' := by
    have ends : itemURL kind uid = (apiBase.toList ++ '/' :: (kind.text.toList ++ ['/'])) ++
        uid := by simp [itemURL]
    rw [ends, List.getLast?_append_of_ne_nil _ plain.1]
    intro last
    exact plain.2.1 (mem_of_getLast? last)
  rw [named] at last ⊢
  simp only [cleanPath, reduceCtorEq, if_false, List.head?_cons, if_true, clean_namesText,
    Path.render]
  rw [if_neg fun trailing => last trailing.1]

variable {validEncoded : List Char → Bool} {escape : List Char → List Char}

theorem reached_plain (plain : Plain uid) (literal : ∀ char ∈ uid, Literal char) (method : Method) :
    reached validEncoded escape kind method uid = some (method, uid) := by
  have clear : ∀ char ∈ itemURL kind uid, Literal char := by
    have fixed : (apiBase.toList ++ '/' :: (kind.text.toList ++ ['/'])).all (Literal ·) := by
      cases kind <;> decide +kernel
    simp only [all_eq_true, decide_eq_true_eq, itemURL, mem_append, mem_cons] at fixed ⊢
    grind
  have split : segments (itemURL kind uid).tail = ["api".toList, "v1".toList, kind.text.toList,
      uid] := by
    rw [segments_itemURL, segments_plain plain]
    rfl
  have routed : routeSegments (itemURL kind uid) = segments (itemURL kind uid).tail := by
    rw [routeSegments, split]
    have whole : pathUnescape uid = some uid := pathUnescape_self fun mem => (literal _ mem).2.2 rfl
    have name : pathUnescape kind.text.toList = some kind.text.toList := by
      cases kind <;> decide +kernel
    simp [whole, name]
    decide
  have slash : uid ≠ ['/'] := by
    rintro rfl
    exact plain.2.1 (by simp)
  simp [reached, parse_literal clear, cleanPath_itemURL plain, routed, split, pathValue, plain.1,
    slash]

theorem pathValue_eq_some {parts : List (List Char)} (got : pathValue kind parts = some uid) :
    parts = ["api".toList, "v1".toList, kind.text.toList, uid] ∧ uid ≠ [] := by
  rw [pathValue.eq_def] at got
  split at got
  · split at got
    · next eq =>
      cases got
      obtain ⟨rfl, rfl, rfl, has, -⟩ := eq
      exact ⟨rfl, has⟩
    · cases got
  · cases got

theorem plain_of_routed {raw path : List Char}
    (parsed : parse (itemURL kind uid) = some (raw, path))
    (cleaned : cleanPath (if validEncoded raw then raw else path) =
      if validEncoded raw then raw else path)
    (got : pathValue kind (if validEncoded raw then routeSegments raw else segments path.tail) =
      some uid) :
    Plain uid ∧ ∀ char ∈ uid, Literal char := by
  obtain ⟨decodes, pre, literal⟩ := parse_eq_some parsed
  obtain ⟨parts, has⟩ := pathValue_eq_some got
  have whole : path = itemURL kind uid := by
    rw [itemURL_eq, ← parts]
    cases raw with
    | nil =>
      cases decodes
      split at parts <;> simp [routeSegments, segments] at parts
    | cons first rest =>
      rw [itemURL_eq, cons_prefix_cons] at pre
      rw [pre.1, pathUnescape_plain (by decide)] at decodes
      obtain ⟨dec, later, rfl⟩ := Option.map_eq_some_iff.mp decodes
      split
      · rw [routeSegments, tail_cons, ← pathUnescape_segments later]
      · rw [tail_cons, segments, intercalate_splitOn]
  -- decoding makes nothing longer, so that nothing was cut off and nothing decoded
  have lengths := pathUnescape_length decodes
  have shorter := pre.length_le
  rw [whole] at lengths
  have eq : raw = itemURL kind uid := pre.eq_of_length (by omega)
  have unencoded : '%' ∉ itemURL kind uid := by
    rw [← eq, ← count_eq_zero]
    omega
  rw [eq, whole, ite_self] at cleaned
  have single : (segments uid).length = 1 := by
    have four := congrArg List.length parts
    rw [eq, whole, apply_ite List.length, routeSegments, length_map, ite_self,
      segments_itemURL] at four
    simpa using four
  refine ⟨⟨has, ?_, ?_, ?_⟩, fun char mem => literal eq unencoded char (by simp [itemURL, mem])⟩
  · intro slash
    obtain ⟨front, back, rfl⟩ := append_of_mem slash
    have first := length_pos_iff.mpr (splitOn_ne_nil '/' front)
    have snd := length_pos_iff.mpr (splitOn_ne_nil '/' back)
    rw [segments_join, length_append, segments, segments] at single
    omega
  · rintro rfl
    exact dots_unclean.1 cleaned
  · rintro rfl
    exact dots_unclean.2 cleaned

end

/-- Every request for a uid comes to the handler of its method with that uid exactly if the uid is a
path segment, no dots, of characters that stand for themselves. -/
theorem items_reached_iff (validEncoded : List Char → Bool) (escape : List Char → List Char)
    (kind : Kind) (uid : List Char) :
    (∀ method, reached validEncoded escape kind method uid = some (method, uid)) ↔
      Plain uid ∧ ∀ char ∈ uid, Literal char := by
  refine ⟨?_, fun fine => reached_plain fine.1 fine.2⟩
  intro always
  have put := always .put
  rw [reached] at put
  split at put
  · cases put
  · next raw path parsed =>
    dsimp only at put
    by_cases cleaned : cleanPath (if validEncoded raw then raw else path) =
      if validEncoded raw then raw else path
    · rw [if_pos cleaned] at put
      exact plain_of_routed parsed cleaned (by simpa using put)
    · -- a redirect makes a GET of the PUT
      rw [if_neg cleaned] at put
      simp at put

/-- A uid that looks encoded is decoded on its way, and another record is reached. -/
theorem encoded_uid_reaches_other :
    reached (fun _ => true) id .compute .get "50%25".toList = some (.get, "50%".toList) := by
  decide +kernel

end Infrastructure.Client
