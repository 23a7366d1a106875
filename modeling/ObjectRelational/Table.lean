/-!
# Keyed tables

Finite maps kept as a list of entries in the order of their first insertion. The registries, the
metadata cache, the load counters and the slots of an instance are all of this shape.

* `Table.get?` reads the first entry of a key;
* `Table.put` replaces an entry in place and appends a new one at the end;
* `Table.putNew` keeps an entry that is already there.
-/

namespace ObjectRelational

set_option autoImplicit false

/-- A finite map from `κ` to `ν`; of several entries of one key the first counts. -/
abbrev Table (κ ν : Type) := List (κ × ν)

namespace Table

variable {κ ν : Type} [DecidableEq κ]

def get? : Table κ ν → κ → Option ν
  | [], _ => none
  | (k, v) :: rest, key => if k = key then some v else get? rest key

def put : Table κ ν → κ → ν → Table κ ν
  | [], key, value => [(key, value)]
  | (k, v) :: rest, key, value =>
      if k = key then (k, value) :: rest else (k, v) :: put rest key value

/-- Adds an entry unless the key has one. -/
def putNew (table : Table κ ν) (key : κ) (value : ν) : Table κ ν :=
  match get? table key with
  | some _ => table
  | none => put table key value

def has (table : Table κ ν) (key : κ) : Bool :=
  (get? table key).isSome

def keys (table : Table κ ν) : List κ :=
  table.map Prod.fst

/-! ## Reading after writing -/

@[simp]
theorem get?_nil (key : κ) : get? ([] : Table κ ν) key = none := rfl

theorem get?_put (table : Table κ ν) (key other : κ) (value : ν) :
    get? (put table key value) other = if key = other then some value else get? table other := by
  induction table with
  | nil => simp [put, get?]
  | cons entry rest ih =>
    obtain ⟨k, v⟩ := entry
    by_cases hk : k = key
    · subst hk
      by_cases ho : k = other <;> simp [put, get?, ho]
    · by_cases ho : k = other
      · subst ho
        simp [put, get?, hk, Ne.symm hk]
      · simp [put, get?, hk, ho, ih]

@[simp]
theorem get?_put_self (table : Table κ ν) (key : κ) (value : ν) :
    get? (put table key value) key = some value := by
  simp [get?_put]

/-- Of two writes to one key the second counts. -/
@[simp]
theorem put_put (table : Table κ ν) (key : κ) (first second : ν) :
    put (put table key first) key second = put table key second := by
  induction table with
  | nil => simp [put]
  | cons entry rest ih =>
    obtain ⟨k, v⟩ := entry
    by_cases hk : k = key <;> simp [put, hk, ih]

theorem get?_putNew (table : Table κ ν) (key other : κ) (value : ν) :
    get? (putNew table key value) other =
      if key = other then some ((get? table key).getD value) else get? table other := by
  unfold putNew
  split
  · next v h =>
    by_cases ho : key = other
    · subst ho; simp [h]
    · simp [ho]
  · next h => simp [get?_put, h]

end Table

end ObjectRelational
