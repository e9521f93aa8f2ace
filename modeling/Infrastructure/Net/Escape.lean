import Infrastructure.Text.Path

/-! Percent-encoded paths. Text is read byte by byte, each byte a character. -/

namespace Infrastructure.Net

open Text List Option

def unhex (digit : Char) : Option Nat :=
  if '0' ≤ digit ∧ digit ≤ '9' then some (digit.toNat - '0'.toNat)
  else if 'a' ≤ digit ∧ digit ≤ 'f' then some (digit.toNat - 'a'.toNat + 10)
  else if 'A' ≤ digit ∧ digit ≤ 'F' then some (digit.toNat - 'A'.toNat + 10)
  else none

/-- `url.PathUnescape`, which fails on a percent sign without two hexadecimal digits. -/
def pathUnescape : List Char → Option (List Char)
  | [] => some []
  | '%' :: high :: low :: rest =>
    match unhex high, unhex low, pathUnescape rest with
    | some high, some low, some dec => some (Char.ofNat (16 * high + low) :: dec)
    | _, _, _ => none
  | '%' :: _ => none
  | char :: rest => (pathUnescape rest).map (char :: ·)

theorem unhex_slash : unhex '/' = none := by decide

theorem pathUnescape_plain {char : Char} (plain : char ≠ '%') (rest : List Char) :
    pathUnescape (char :: rest) = (pathUnescape rest).map (char :: ·) := by
  rw [pathUnescape.eq_4]
  · exact fun _ _ _ percent => (plain percent).elim
  · exact plain

/-- Decoding makes a text shorter, unless nothing is encoded. -/
theorem pathUnescape_length {text dec : List Char} (decodes : pathUnescape text = some dec) :
    dec.length + 2 * text.count '%' = text.length := by
  fun_induction pathUnescape text generalizing dec with
  | case1 =>
    cases decodes
    rfl
  | case2 high low rest h l got hd hl hh ih =>
    have digits : high ≠ '%' ∧ low ≠ '%' := by
      constructor <;> rintro rfl
      · cases hh
      · cases hl
    cases decodes
    have shorter := ih hd
    simp [digits]
    omega
  | case3 => cases decodes
  | case4 => cases decodes
  | case5 char rest _ plain ih =>
    have other : char ≠ '%' := plain
    obtain ⟨got, hd, rfl⟩ := map_eq_some_iff.mp decodes
    have shorter := ih hd
    simp [other]
    omega

theorem pathUnescape_self {text : List Char} (plain : '%' ∉ text) :
    pathUnescape text = some text := by
  induction text with
  | nil => rfl
  | cons char rest ih =>
    rw [mem_cons, not_or] at plain
    rw [pathUnescape_plain (Ne.symm plain.1), ih plain.2]
    rfl

/-- A slash separates what is decoded: it is no part of an encoded character. -/
theorem pathUnescape_join (first snd : List Char) : pathUnescape (first ++ '/' :: snd) =
      (pathUnescape first).bind fun front => (pathUnescape snd).map fun back =>
        front ++ '/' :: back := by
  induction first using pathUnescape.induct with
  | case1 => simp [pathUnescape]
  | case2 high low rest h l dec hh hl hd ih =>
    simp only [cons_append, pathUnescape, hh, hl, hd, ih]
    cases pathUnescape snd with
    | none => rfl
    | some back => rfl
  | case3 high low rest fails ih =>
    have broken : pathUnescape ('%' :: high :: low :: rest) = none := by
      rw [pathUnescape]
      split
      · next h l dec hh hl hd => exact (fails h l dec hh hl hd).elim
      · rfl
    rw [broken, cons_append, cons_append, cons_append, pathUnescape]
    split
    · next h l dec hh hl joined =>
      rw [ih] at joined
      cases front : pathUnescape rest with
      | none =>
        rw [front] at joined
        cases joined
      | some front' => exact (fails h l front' hh hl front).elim
    · rfl
  | case4 rest short =>
    have broken : pathUnescape ('%' :: rest) = none := pathUnescape.eq_3 rest short
    rw [broken, bind_none]
    match rest, short with
    | [], _ =>
      cases snd with
      | nil => rfl
      | cons next snd => simp [pathUnescape, unhex_slash]
    | [digit], _ => simp [pathUnescape, unhex_slash]
    | high :: low :: rest, short => exact (short high low rest rfl).elim
  | case5 char rest _ plain ih =>
    rw [cons_append, pathUnescape_plain plain, pathUnescape_plain plain, ih]
    cases pathUnescape rest with
    | none => rfl
    | some front =>
      cases pathUnescape snd with
      | none => rfl
      | some back => rfl

theorem pathUnescape_segments {text dec : List Char} (decodes : pathUnescape text = some dec) :
    dec = ['/'].intercalate ((segments text).map fun seg => (pathUnescape seg).getD seg) := by
  have joined (parts : List (List Char)) (ne : parts ≠ []) : ∀ dec,
      pathUnescape (['/'].intercalate parts) = some dec →
        dec = ['/'].intercalate (parts.map fun seg => (pathUnescape seg).getD seg) := by
    induction parts with
    | nil => exact (ne rfl).elim
    | cons part parts ih =>
      intro dec decodes
      cases parts with
      | nil =>
        rw [intercalate_singleton] at decodes
        simp [decodes]
      | cons next parts =>
        rw [intercalate_cons_cons, append_assoc, singleton_append, pathUnescape_join] at decodes
        obtain ⟨front, got, rest⟩ := bind_eq_some_iff.mp decodes
        obtain ⟨back, later, eq⟩ := map_eq_some_iff.mp rest
        have decodedRest := ih (by simp) back later
        rw [map_cons] at decodedRest
        rw [map_cons, map_cons, intercalate_cons_cons, ← decodedRest, got, ← eq]
        simp
  have split : segments text ≠ [] := splitOn_ne_nil '/' text
  have whole : ['/'].intercalate (segments text) = text := intercalate_splitOn '/'
  apply joined _ split
  rw [whole, decodes]

end Infrastructure.Net
