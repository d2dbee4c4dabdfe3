import Otui.Proofs.Recording
import Otui.Registry.Packaged

/-!
# Which types are known while reading

Reading starts from the packaged registry, gives definitions to types on first use and makes every
template a type. The types that are made up have `UI` in front, so they do not matter to what any
name is resolved to: `typeAmong` resolves a name when nothing but the names of the templates before
it is known. `Registry.Knows` is what stays true of the registry on the way.
-/

namespace Otui

open Otui.Text

namespace Registry

/-- A registry that knows, besides the packaged types, templates of some names and types with `UI`
in front. -/
structure Knows (names : List String) (r : Registry) : Prop where
  /-- The other names for types are the packaged ones. -/
  aliases : r.aliases = packaged.aliases
  /-- A type without `UI` in front is a packaged one or a template. -/
  knows : ∀ name, startsWith "UI" name = false →
    (r.knows name = true ↔ packaged.knows name = true ∨ name ∈ names)

/-- The type of a name when templates of some names are known. -/
def typeAmong (names : List String) (name : String) : String :=
  match packaged.aliases.get? name with
  | some type => type
  | none =>
    if packaged.knows name || names.contains name || startsWith "UI" name then name
    else "UI" ++ name

theorem knows_packaged : Knows [] packaged :=
  ⟨rfl, fun _ _ => by simp⟩

/-- The types of other names have `UI` in front. -/
theorem startsWith_of_alias {name type : String} (h : packaged.aliases.get? name = some type) :
    startsWith "UI" type = true := by
  have hall : ∀ e ∈ packaged.aliases.entries, startsWith "UI" e.2 = true := by decide +kernel
  exact hall _ (Ledger.mem_of_get? h)

theorem typeAmong_ne_empty {names : List String} {name : String} (h : name ≠ "") :
    typeAmong names name ≠ "" := by
  unfold typeAmong
  split
  · next type htype =>
    rintro rfl
    have := startsWith_of_alias htype
    revert this
    decide
  · split
    · exact h
    · intro he
      have := congrArg String.toList he
      simp at this

theorem knows_insert (r : Registry) (definition : Definition) (name key : String) :
    knows { r with definitions := r.definitions.insert key definition } name = true
      ↔ name = key ∨ r.knows name = true := by
  simp only [knows, Ledger.contains_iff, Ledger.keys_insert]
  split
  · next hk => exact ⟨.inr, by rintro (rfl | h) <;> assumption⟩
  · rw [List.mem_append, List.mem_singleton, or_comm]

namespace Knows

variable {names : List String} {r : Registry}

/-- What a name is resolved to depends on the names of the templates that are known. -/
theorem resolve_eq (h : r.Knows names) (name : String) :
    r.resolve name = typeAmong names name := by
  rw [resolve, typeAmong, h.aliases]
  cases packaged.aliases.get? name with
  | some type => rfl
  | none =>
    cases hu : startsWith "UI" name with
    | true => simp
    | false =>
      have hk : r.knows name = (packaged.knows name || names.contains name) := by
        rw [Bool.eq_iff_iff, h.knows name hu]
        simp
      simp only [hk, Bool.or_false, Bool.false_eq_true, if_false]

/-- A type that a name is resolved to is known, or has `UI` in front. -/
theorem resolve_cases (h : r.Knows names) (name : String) :
    r.knows (r.resolve name) = true ∨ startsWith "UI" (r.resolve name) = true := by
  rw [resolve, h.aliases]
  cases ha : packaged.aliases.get? name with
  | some type => exact .inr (startsWith_of_alias ha)
  | none =>
    simp only
    split
    · next hk => exact .inl hk
    · split
      · next hu => exact .inr hu
      · exact .inr (by simp [startsWith])

/-- A definition for a type with `UI` in front changes nothing that matters. -/
theorem ensure (h : r.Knows names) (name : String) :
    (r.ensure (r.resolve name)).value.Knows names := by
  unfold Registry.ensure
  split
  · exact h
  · next hk =>
    have hui := (h.resolve_cases name).resolve_left hk
    refine ⟨h.aliases, fun other ho => ?_⟩
    rw [knows_insert, ← h.knows other ho]
    refine ⟨fun hor => hor.resolve_left ?_, .inr⟩
    rintro rfl
    rw [hui] at ho
    cases ho

/-- A template is known from its opening on. -/
theorem registerTemplate (h : r.Knows names) (name base : String) :
    (r.registerTemplate name (r.resolve base)).value.Knows (names ++ [name]) := by
  have h' := h.ensure base
  refine ⟨h'.aliases, fun other ho => ?_⟩
  have hstep := knows_insert (r.ensure (r.resolve base)).value
    (templateDefinition ((r.ensure (r.resolve base)).value.definitionOf (r.resolve base)) name)
    other name
  refine hstep.trans ?_
  rw [h'.knows other ho, List.mem_append, List.mem_singleton, or_comm, or_assoc]

end Knows

end Registry

/-! ### Templates -/

/-- Templates whose bases were resolved when those of some names and those before them were known. -/
def ResolvedAmong {α : Type} : List String → List (Template α) → Prop
  | _, [] => True
  | names, t :: ts =>
    t.resolvedBase = some (Registry.typeAmong names t.base) ∧ ResolvedAmong (names ++ [t.name]) ts

theorem resolvedAmong_append {α : Type} {names : List String} {ts us : List (Template α)}
    (ht : ResolvedAmong names ts) (hu : ResolvedAmong (names ++ ts.map Template.name) us) :
    ResolvedAmong names (ts ++ us) := by
  induction ts generalizing names with
  | nil => simpa using hu
  | cons t ts ih => exact ⟨ht.1, ih ht.2 (by simpa using hu)⟩

/-- Names and declared bases alone decide which types instances have. -/
theorem map_instanceBase_eq {α β : Type} {names : List String} {ts : List (Template α)}
    {us : List (Template β)} (ht : ResolvedAmong names ts) (hu : ResolvedAmong names us)
    (h : ts.map (fun t => (t.name, t.base)) = us.map fun u => (u.name, u.base)) :
    ts.map (fun t => (t.name, t.instanceBase)) = us.map fun u => (u.name, u.instanceBase) := by
  induction ts generalizing us names with
  | nil =>
    cases us with
    | nil => rfl
    | cons u us => cases h
  | cons t ts ih =>
    cases us with
    | nil => cases h
    | cons u us =>
      simp only [List.map_cons, List.cons.injEq, Prod.mk.injEq] at h ⊢
      obtain ⟨⟨hname, hbase⟩, hrest⟩ := h
      refine ⟨⟨hname, ?_⟩, ih ht.2 (hname ▸ hu.2) hrest⟩
      rw [Template.instanceBase, Template.instanceBase, ht.1, hu.1, hbase]

end Otui
