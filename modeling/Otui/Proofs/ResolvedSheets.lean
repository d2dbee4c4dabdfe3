import Otui.Proofs.InheritedStyles
import Otui.Registry.Packaged
import Otui.Style.Lookup

/-!
# Sheets that are resolved already

Resolving only looks at what styles say (`Sheet.resolve_declared`), and it adds to that without
changing it (`Sheet.declared_resolve`). So resolving once more changes nothing, and a look up that
resolves on the way finds what a look up in the resolved sheet finds. Rings of parents and missing
ones need no care here: both runs meet the same ones in the same order.
-/

namespace Otui

/-- A style with what it says alone. -/
def Style.declared (style : Style) : Style := { style with flattened := none }

namespace Sheet

/-- The styles of a sheet with what they say alone. -/
def declared (sheet : Sheet) : Sheet := sheet.map Style.declared

variable {sheet : Sheet}

theorem keys_declared (sheet : Sheet) : sheet.declared.keys = sheet.keys := by
  rw [declared, Ledger.keys_eq, Ledger.keys_eq, Ledger.map, List.map_map]
  rfl

theorem get?_declared (sheet : Sheet) (name : String) :
    sheet.declared.get? name = (sheet.get? name).map Style.declared := by
  have hlook : ∀ es : List (String × Style),
      Ledger.lookIn (es.map fun e => (e.1, e.2.declared)) name
        = (Ledger.lookIn es name).map Style.declared := by
    intro es
    induction es with
    | nil => rfl
    | cons e es ih =>
      rw [List.map_cons, Ledger.lookIn, Ledger.lookIn, ih]
      split <;> rfl
  exact hlook sheet.entries

/-- Styles that only say something are the same as declared. -/
theorem declared_eq_self (h : ∀ style ∈ sheet.values, style.flattened = none) :
    sheet.declared = sheet := by
  apply Ledger.ext_entries
  refine (List.map_congr_left fun e he => ?_).trans (List.map_id _)
  have hnone : e.2.flattened = none := h e.2 (List.mem_map_of_mem he)
  exact Prod.ext rfl (by rw [Style.declared, ← hnone]; rfl)

/-! ### What resolving looks at -/

/-- Following parents looks at what styles say. -/
theorem follow_declared (free : List String) (name : String) (found : Found) :
    sheet.declared.follow free name found = sheet.follow free name found := by
  induction free, name using follow.induct sheet found with
  | case1 free name properties hget => rw [follow, follow, hget]
  | case2 free name hget hstyle => rw [follow, follow, hget, get?_declared, hstyle]; rfl
  | case3 free name hget style hstyle hmem hparent =>
    have hparent' : parent? style.declared = none := hparent
    rw [follow, follow, hget, get?_declared, hstyle]
    simp only [Option.map_some, hmem, if_true, hparent, hparent']
    rfl
  | case4 free name hget style hstyle hmem parent hparent ih =>
    have hparent' : parent? style.declared = some parent := hparent
    rw [follow, follow, hget, get?_declared, hstyle]
    simp only [Option.map_some, hmem, if_true, hparent, hparent', ih]
    rfl
  | case5 free name hget style hstyle hmem =>
    rw [follow, follow, hget, get?_declared, hstyle]
    simp only [Option.map_some, hmem, if_false]

theorem resolveAll_declared (sheet : Sheet) (styles : List (String × Style)) (found : Found) :
    sheet.declared.resolveAll (styles.map fun e => (e.1, e.2.declared)) found
      = sheet.resolveAll styles found := by
  induction styles generalizing found with
  | nil => rfl
  | cons e rest ih =>
    simp only [List.map_cons, resolveAll, keys_declared, follow_declared, ih]
    rfl

/-- Resolving looks at what styles say. -/
theorem resolve_declared (sheet : Sheet) : sheet.declared.resolve = sheet.resolve := by
  have hall := resolveAll_declared sheet sheet.entries {}
  exact congrArg (fun entries => entries >>= fun es => pure (Ledger.ofList es)) hall

/-! ### What resolving leaves -/

theorem map_declared_resolveAll (sheet : Sheet) (styles : List (String × Style)) (found : Found) :
    ((sheet.resolveAll styles found).value.map fun e => (e.1, e.2.declared))
      = styles.map fun e => (e.1, e.2.declared) := by
  induction styles generalizing found with
  | nil => rfl
  | cons e rest ih =>
    rw [resolveAll]
    simp only [Noted.value_bind, Noted.value_pure, List.map_cons, ih]
    rfl

/-- Resolving leaves what styles say, and their order. -/
theorem declared_resolve (sheet : Sheet) : sheet.resolve.value.declared = sheet.declared := by
  apply Ledger.ext_entries
  have hentries := map_declared_resolveAll sheet sheet.entries {}
  rwa [← entries_resolve] at hentries

/-- Resolving once more is resolving once. -/
theorem resolve_resolve (sheet : Sheet) : sheet.resolve.value.resolve = sheet.resolve := by
  rw [← resolve_declared, declared_resolve, resolve_declared]

/-! ### Looking styles up -/

theorem contains_resolve (sheet : Sheet) (name : String) :
    sheet.resolve.value.contains name = sheet.contains name := by
  have hkeys : sheet.resolve.value.keys = sheet.keys := by
    rw [← keys_declared, declared_resolve, keys_declared]
  rw [Ledger.contains, hkeys, ← Ledger.contains]

theorem isSome_flattened_of_get?_resolve {name : String} {style : Style}
    (h : sheet.resolve.value.get? name = some style) : style.flattened.isSome = true := by
  cases hget : sheet.get? name with
  | none => rw [get?_resolve_of_missing hget] at h; cases h
  | some declared =>
    obtain ⟨_, properties, _, -, -, hresolve⟩ := get?_resolve hget
    rw [h] at hresolve
    rw [Option.some.inj hresolve]
    rfl

/-- In a resolved sheet nothing is resolved on the way. -/
theorem resolved?_resolve (sheet : Sheet) (name : String) :
    sheet.resolve.value.resolved? name = sheet.resolve.value.get? name := by
  rw [resolved?]
  cases h : sheet.resolve.value.get? name with
  | none => rfl
  | some style => rw [Option.bind_some, if_pos (isSome_flattened_of_get?_resolve h)]

/-- In a sheet of styles that only say something the sheet is resolved on the way. -/
theorem resolved?_of_declared (h : ∀ style ∈ sheet.values, style.flattened = none)
    (name : String) : sheet.resolved? name = sheet.resolve.value.get? name := by
  rw [resolved?]
  cases hget : sheet.get? name with
  | none => rw [get?_resolve_of_missing hget]; rfl
  | some style =>
    have hnone : style.flattened = none :=
      h style (List.mem_map_of_mem (Ledger.mem_of_get? hget))
    rw [Option.bind_some, hnone, Option.isSome_none, if_neg Bool.false_ne_true]

/-- **Sheets are resolved once.** Resolving a resolved sheet changes nothing. A resolved sheet has
the styles of the sheet in their order, with all that they say, and properties that apply to each.
A look up by a type, with any style names, finds the same style before and after. -/
theorem resolve_settles (h : ∀ style ∈ sheet.values, style.flattened = none) :
    sheet.resolve.value.resolve.value = sheet.resolve.value
      ∧ sheet.resolve.value.declared = sheet
      ∧ (∀ style ∈ sheet.resolve.value.values, style.flattened.isSome = true)
      ∧ ∀ (registry : Option Registry) (type : String),
        sheet.styleFor? registry type = sheet.resolve.value.styleFor? registry type := by
  refine ⟨by rw [resolve_resolve], by rw [declared_resolve, declared_eq_self h], ?_, ?_⟩
  · intro style hstyle
    obtain ⟨e, he, rfl⟩ := List.mem_map.1 hstyle
    exact isSome_flattened_of_get?_resolve (Ledger.get?_of_mem he)
  · intro registry type
    have hcontains : sheet.resolve.value.contains = sheet.contains :=
      funext (contains_resolve sheet)
    have hresolved : sheet.resolve.value.resolved? = sheet.resolved? :=
      funext fun name => by rw [resolved?_resolve, resolved?_of_declared h]
    rw [styleFor?, styleFor?, hcontains, hresolved]

/-- The sheet of windows has a ring of parents, a missing parent and a state. -/
theorem resolve_settles_windowsSheet :
    (∀ style ∈ windowsSheet.values, style.flattened = none)
      ∧ windowsSheet.resolve.value.resolve.value = windowsSheet.resolve.value
      ∧ windowsSheet.resolve.value.declared = windowsSheet
      ∧ windowsSheet.styleFor? (some Registry.packaged) "UIButton"
        = windowsSheet.resolve.value.styleFor? (some Registry.packaged) "UIButton" := by
  have h : ∀ style ∈ windowsSheet.values, style.flattened = none := by decide
  obtain ⟨htwice, hdeclared, -, hfor⟩ := resolve_settles h
  exact ⟨h, htwice, hdeclared, hfor (some Registry.packaged) "UIButton"⟩

end Sheet

end Otui
