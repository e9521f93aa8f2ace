import Infrastructure.State.Store

/-! Values kept in the store as bytes. -/

namespace Infrastructure.State

/-- Go's zero `time.Time`, the first instant of year 1, in nanoseconds from 1970. -/
def zeroTime : Int := -62135596800 * 10 ^ 9

/-- `encoding/json` on the values of one type: what it writes it reads back. -/
structure Encoding (α : Type) where
  marshal : α → Except Error Bytes
  unmarshal : Bytes → Except Error α
  roundTrip : ∀ val data, marshal val = .ok data → unmarshal data = .ok val

theorem find_second {α β : Type} [DecidableEq α] [DecidableEq β] {table : List (α × β)}
    (nodup : (table.map Prod.snd).Nodup) {val : α} {entry : α × β}
    (got : table.find? (fun item => item.1 = val) = some entry) :
    table.find? (fun item => item.2 = entry.2) = some (val, entry.2) := by
  have seen := List.mem_of_find?_eq_some got
  have first : entry.1 = val := by simpa using List.find?_some got
  cases reread : table.find? fun item => item.2 = entry.2 with
  | none => simpa using List.find?_eq_none.mp reread entry seen
  | some other =>
    have snd : other.2 = entry.2 := by simpa using List.find?_some reread
    have eq := List.inj_on_of_nodup_map nodup (List.mem_of_find?_eq_some reread) seen snd
    rw [eq, ← first]

/-- The encoding that knows only the listed values. -/
def Encoding.ofTable {α : Type} [DecidableEq α] (table : List (α × Bytes))
    (nodup : (table.map Prod.snd).Nodup) : Encoding α where
  marshal val :=
    match table.find? fun entry => entry.1 = val with
    | some entry => .ok entry.2
    | none => .error (.new "json: unsupported value")
  unmarshal data :=
    match table.find? fun entry => entry.2 = data with
    | some entry => .ok entry.1
    | none => .error (.new "json: invalid input")
  roundTrip val data enc := by
    split at enc
    · next entry found =>
      cases enc
      simp only [find_second nodup found]
    · cases enc

theorem Encoding.ofTable_listed {α : Type} [DecidableEq α] {table : List (α × Bytes)}
    {nodup : (table.map Prod.snd).Nodup} {val : α} {data : Bytes}
    (enc : (Encoding.ofTable table nodup).marshal val = .ok data) : data ∈ table.map Prod.snd := by
  simp only [Encoding.ofTable] at enc
  split at enc
  · next entry got =>
    cases enc
    exact List.mem_map_of_mem (List.mem_of_find?_eq_some got)
  · cases enc

end Infrastructure.State
