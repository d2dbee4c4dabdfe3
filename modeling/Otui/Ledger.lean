/-!
# Ledgers: maps that remember when a key first came

Property maps, type tables and style sheets are all maps from names that are printed, walked and
compared in the order in which their keys first appeared. Writing a key again changes its value and
keeps its place.

`Ledger.get?` and `Ledger.keys` are the two views; each operation says what it does to them.
-/

namespace Otui

/-- A map from names, in the order in which the names came. -/
structure Ledger (ν : Type) where
  /-- The names with their values, oldest first. -/
  entries : List (String × ν)
  /-- No name stands twice. -/
  nodup : (entries.map Prod.fst).Nodup
  deriving DecidableEq

namespace Ledger

variable {ν μ : Type}

/-- The map without entries. -/
def empty : Ledger ν := ⟨[], by simp⟩

instance : EmptyCollection (Ledger ν) := ⟨empty⟩
instance : Inhabited (Ledger ν) := ⟨empty⟩

/-- The names, oldest first. -/
def keys (m : Ledger ν) : List String := m.entries.map Prod.fst

/-- The values, in the order of their names. -/
def values (m : Ledger ν) : List ν := m.entries.map Prod.snd

/-- How many names there are. -/
def size (m : Ledger ν) : Nat := m.entries.length

/-- Whether there are no entries. -/
def isEmpty (m : Ledger ν) : Bool := m.entries.isEmpty

/-- Whether a name has a value. -/
def contains (m : Ledger ν) (key : String) : Bool := m.keys.contains key

/-- The value in a list of entries of the first entry with a name. -/
def lookIn : List (String × ν) → String → Option ν
  | [], _ => none
  | (k, v) :: rest, key => if k = key then some v else lookIn rest key

/-- The value of a name. -/
def get? (m : Ledger ν) (key : String) : Option ν := lookIn m.entries key

/-! ### Writing -/

/-- Writes into a list of entries: in place when the name is there, at the end otherwise. -/
def writeIn (key : String) (value : ν) : List (String × ν) → List (String × ν)
  | [] => [(key, value)]
  | (k, v) :: rest => if k = key then (k, value) :: rest else (k, v) :: writeIn key value rest

theorem writeIn_keys (key : String) (value : ν) (es : List (String × ν)) :
    (writeIn key value es).map Prod.fst
      = if key ∈ es.map Prod.fst then es.map Prod.fst else es.map Prod.fst ++ [key] := by
  induction es with
  | nil => simp [writeIn]
  | cons e es ih =>
    obtain ⟨k, v⟩ := e
    by_cases h : k = key
    · subst h; simp [writeIn]
    · have h' : ¬ key = k := fun e => h e.symm
      by_cases hm : key ∈ es.map Prod.fst <;> simp_all [writeIn]

/-- Gives a name a value; a name that is there already keeps its place. -/
def insert (m : Ledger ν) (key : String) (value : ν) : Ledger ν where
  entries := writeIn key value m.entries
  nodup := by
    rw [writeIn_keys]
    split
    · exact m.nodup
    · next h =>
      rw [List.nodup_append]
      refine ⟨m.nodup, by simp, ?_⟩
      intro a ha b hb hab
      simp at hb
      subst hb hab
      exact h ha

/-- Gives a name a value unless it has one. -/
def insertNew (m : Ledger ν) (key : String) (value : ν) : Ledger ν :=
  if m.contains key then m else m.insert key value

/-- Keeps the entries whose name and value satisfy a test. -/
def filter (p : String → ν → Bool) (m : Ledger ν) : Ledger ν where
  entries := m.entries.filter fun e => p e.1 e.2
  nodup := (List.filter_sublist.map Prod.fst).nodup m.nodup

/-- Removes a name. -/
def erase (m : Ledger ν) (key : String) : Ledger ν := m.filter fun k _ => k != key

/-- Changes the values, keeping the names. -/
def map (f : ν → μ) (m : Ledger ν) : Ledger μ where
  entries := m.entries.map fun e => (e.1, f e.2)
  nodup := by
    have h := m.nodup
    simpa [List.map_map, Function.comp_def] using h

/-- Changes the value of one name, if it has one. -/
def modify (m : Ledger ν) (key : String) (f : ν → ν) : Ledger ν :=
  match m.get? key with
  | some v => m.insert key (f v)
  | none => m

/-- Writes a list of entries one after the other. -/
def insertAll (m : Ledger ν) (es : List (String × ν)) : Ledger ν :=
  es.foldl (fun m e => m.insert e.1 e.2) m

/-- The map that a list of entries writes; of two entries with one name the later one counts. -/
def ofList (es : List (String × ν)) : Ledger ν := empty.insertAll es

/-- `base.overlay top`: the values of `top` win; the names of `base` keep their places. -/
def overlay (base top : Ledger ν) : Ledger ν := base.insertAll top.entries

/-! ### The views -/

theorem keys_insert (m : Ledger ν) (key : String) (value : ν) :
    (m.insert key value).keys = if key ∈ m.keys then m.keys else m.keys ++ [key] :=
  writeIn_keys key value m.entries

theorem lookIn_writeIn (key : String) (value : ν) (es : List (String × ν)) (k : String) :
    lookIn (writeIn key value es) k = if key = k then some value else lookIn es k := by
  induction es with
  | nil => simp [writeIn, lookIn]
  | cons e es ih =>
    obtain ⟨k', v'⟩ := e
    by_cases h : k' = key
    · subst h
      by_cases hk : k' = k <;> simp [writeIn, lookIn, hk]
    · by_cases hk : k' = k
      · subst hk
        have h' : ¬ key = k' := fun e => h e.symm
        simp [writeIn, lookIn, h, h']
      · simp [writeIn, lookIn, h, hk, ih]

/-- A write is seen under its name and nowhere else. -/
theorem get?_insert (m : Ledger ν) (key : String) (value : ν) (k : String) :
    (m.insert key value).get? k = if key = k then some value else m.get? k :=
  lookIn_writeIn key value m.entries k

theorem lookIn_isSome (es : List (String × ν)) (k : String) :
    (lookIn es k).isSome = true ↔ k ∈ es.map Prod.fst := by
  induction es with
  | nil => simp [lookIn]
  | cons e es ih =>
    obtain ⟨k', v'⟩ := e
    by_cases h : k' = k
    · subst h; simp [lookIn]
    · have h' : ¬ k = k' := fun e => h e.symm
      simp only [lookIn, h, if_false, ih, List.map_cons, List.mem_cons, h', false_or]

theorem isSome_get?_iff (m : Ledger ν) (k : String) : (m.get? k).isSome = true ↔ k ∈ m.keys :=
  lookIn_isSome m.entries k

@[simp] theorem contains_iff (m : Ledger ν) (k : String) : m.contains k = true ↔ k ∈ m.keys := by
  simp [contains]

@[simp] theorem get?_empty (k : String) : (empty : Ledger ν).get? k = none := rfl

@[simp] theorem keys_empty : (empty : Ledger ν).keys = [] := rfl

theorem ext_entries {m n : Ledger ν} (h : m.entries = n.entries) : m = n := by
  cases m; cases n; simp_all

end Ledger

end Otui
