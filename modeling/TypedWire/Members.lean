/-!
# Members in order

The members of an object are a list of keys with values, each key once. Writing a key that is already
there keeps its place and takes the new value; a new key goes to the end.
-/

namespace TypedWire

/-- Keys with their values, in order. -/
abbrev Members (α : Type) := List (String × α)

namespace Members
variable {α : Type}

def find? (key : String) : Members α → Option α
  | [] => none
  | (k, v) :: rest => if k = key then some v else find? key rest

/-- Writes a key: in its place if it is there, else at the end. -/
def insert (key : String) (value : α) : Members α → Members α
  | [] => [(key, value)]
  | (k, v) :: rest => if k = key then (k, value) :: rest else (k, v) :: insert key value rest

/-- The members of a list of writes, made from first to last. -/
def ofList (entries : List (String × α)) : Members α :=
  entries.foldl (fun ms e => insert e.1 e.2 ms) []

def keys (ms : Members α) : List String :=
  ms.map Prod.fst

/-- No key stands twice. -/
def Distinct (ms : Members α) : Prop :=
  (keys ms).Nodup

theorem find?_insert (key other : String) (value : α) (ms : Members α) :
    find? other (insert key value ms) = if key = other then some value else find? other ms := by
  induction ms with
  | nil => simp [insert, find?]
  | cons e rest ih =>
    obtain ⟨k, v⟩ := e
    by_cases hk : k = key
    · subst hk
      by_cases ho : k = other <;> simp [insert, find?, ho]
    · by_cases ho : k = other
      · subst ho
        simp [insert, find?, hk, Ne.symm hk]
      · simp [insert, find?, hk, ho, ih]

/-- A key that is there keeps the list of keys as it is. -/
theorem keys_insert_of_mem {key : String} {value : α} {ms : Members α} (h : key ∈ keys ms) :
    keys (insert key value ms) = keys ms := by
  induction ms with
  | nil => simp [keys] at h
  | cons e rest ih =>
    by_cases hk : e.1 = key
    · simp [insert, keys, hk]
    · have : key ∈ keys rest := by simpa [keys, Ne.symm hk] using h
      simpa [insert, keys, hk] using ih this

/-- A new key goes to the end. -/
theorem insert_of_not_mem {key : String} {value : α} {ms : Members α} (h : key ∉ keys ms) :
    insert key value ms = ms ++ [(key, value)] := by
  induction ms with
  | nil => rfl
  | cons e rest ih =>
    obtain ⟨hne, hrest⟩ := List.ne_and_not_mem_of_not_mem_cons h
    simp [insert, Ne.symm hne, ih hrest]

end Members

end TypedWire
