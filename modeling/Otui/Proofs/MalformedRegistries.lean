import Otui.Proofs.MalformedSettings
import Otui.Proofs.Recording
import Otui.Registry.Loading

/-!
# Registries from malformed data

What is wrong with the data of a registry is listed like what is wrong with the data of a
configuration, and reading it fails with the first problem too (`meets_ofData`). The data is looked
at on its outside, and so are the definitions of types: one that is not a mapping is a value that
makes no sense. What is inside of these is taken for a mapping, for pairs or for a list as it comes,
and fails as such when it is none.
-/

namespace Otui

namespace Registry

/-! ### Parts of a registry -/

/-- What is wrong with a value where a mapping belongs. -/
def entriesProblems : Option Data → List FaultKind
  | none | some (.mapping _) => []
  | some _ => [.lacksOperation]

/-- What is wrong with a value where a name belongs. -/
def nameProblems (d : Data) : List FaultKind := if d.unhashable?.isSome then [.badKind] else []

/-- What is wrong with a value where a pair belongs: it may have the wrong number of members, or no
members. -/
def pairProblems (d : Data) : List FaultKind :=
  match d.members? with
  | some [k, _] => nameProblems k
  | some _ => [.badValue]
  | none => [.badKind]

/-- What is wrong with a value where a mapping or pairs belong. -/
def pairsProblems : Option Data → List FaultKind
  | none | some (.mapping _) => []
  | some d =>
    match d.members? with
    | some ds => ds.flatMap pairProblems
    | none => [.badKind]

/-- What is wrong with a value where a text belongs: an integer may be too long to be written. -/
def textProblems (d : Data) : List FaultKind := if d.hasLongInteger then [.badValue] else []

/-- What is wrong with a value where style names belong: a text is one, and what has members has some
among them. -/
def styleProblems : Data → List FaultKind
  | .text _ => []
  | d =>
    match d.members? with
    | some ds => ds.flatMap textProblems
    | none => [.badKind]

/-- The entries of a value that is a mapping. -/
def entries : Option Data → List (Data × Data)
  | some (.mapping es) => es
  | _ => []

/-- What is wrong with a value where the events of a type belong. -/
def eventProblems (given : Option Data) : List FaultKind :=
  entriesProblems given ++ (entries given).flatMap fun e => textProblems e.1 ++ textProblems e.2

/-- What is wrong with a value where the definition of a type belongs. -/
def definitionProblems : Data → List FaultKind
  | .mapping es => pairsProblems ((Data.mapping es).orNothing "props")
    ++ eventProblems ((Data.mapping es).orNothing "events")
  | d => if d.truthy then [.badValue] else []

theorem meets_entriesOf (given : Option Data) :
    Meets (entriesProblems given) (Data.entriesOf given) := by
  fun_cases Data.entriesOf given with
  | case1 | case2 => exact meets_ok _
  | case3 =>
    simp only [entriesProblems]
    exact meets_error rfl (by decide)

theorem entriesOf_eq_ok {given : Option Data} {es : List (Data × Data)}
    (h : Data.entriesOf given = .ok es) : entries given = es := by
  revert h
  fun_cases Data.entriesOf given with
  | case1 | case2 => exact fun h => Except.ok.inj h
  | case3 => exact nofun

theorem meets_asName (d : Data) : Meets (nameProblems d) d.asName := by
  rw [nameProblems, Data.asName]
  cases d.unhashable? with
  | some kind => exact meets_error rfl (by decide)
  | none => exact meets_ok d

theorem meets_pairAt (index : Nat) (d : Data) : Meets (pairProblems d) (Data.pairAt index d) := by
  fun_cases Data.pairAt index d with
  | case1 k v hpair =>
    rw [pairProblems, hpair]
    exact (meets_asName k).map _
  | case2 ds hne hds =>
    simp only [pairProblems, hds]
    exact meets_error rfl (by decide)
  | case3 hnone =>
    rw [pairProblems, hnone]
    exact meets_error rfl (by decide)

theorem meets_pairsFrom (index : Nat) (ds : List Data) :
    Meets (ds.flatMap pairProblems) (Data.pairsFrom index ds) := by
  induction ds generalizing index with
  | nil => exact meets_ok _
  | cons d ds ih =>
    rw [Data.pairsFrom, List.flatMap_cons]
    exact (meets_pairAt index d).bind fun _ _ => (ih (index + 1)).bind_pure _

theorem meets_pairsOf (given : Option Data) :
    Meets (pairsProblems given) (Data.pairsOf given) := by
  fun_cases Data.pairsOf given with
  | case1 | case2 => exact meets_ok _
  | case3 d hne ds hds =>
    simp only [pairsProblems, hds]
    exact meets_pairsFrom 0 ds
  | case4 d hne hnone =>
    simp only [pairsProblems, hnone]
    exact meets_error rfl (by decide)

theorem meets_toText (d : Data) : Meets (textProblems d) d.toText := by
  rw [textProblems, Data.toText]
  split
  · exact meets_error rfl (by decide)
  · exact meets_ok _

theorem meets_styleNamesOfData (d : Data) : Meets (styleProblems d) (styleNamesOfData d) := by
  fun_cases styleNamesOfData d with
  | case1 => exact meets_ok _
  | case2 d hne =>
    rw [Data.memberTexts]
    cases hds : d.members? with
    | some ds =>
      simp only [styleProblems, hds]
      exact meets_mapM fun d _ => meets_toText d
    | none =>
      simp only [styleProblems, hds]
      exact meets_error rfl (by decide)

/-- The entries of a mapping are read one after the other. -/
theorem meets_entries {γ : Type} {given : Option Data} {es : List (Data × Data)}
    {itemProblems : Data × Data → List FaultKind} {read : Data × Data → Except Fault γ}
    (hes : Data.entriesOf given = .ok es) (h : ∀ e, Meets (itemProblems e) (read e)) :
    Meets ((entries given).flatMap itemProblems) (es.mapM read) := by
  rw [entriesOf_eq_ok hes]
  exact meets_mapM fun e _ => h e

theorem meets_events (given : Option Data) :
    Meets (eventProblems given) (do
      let events ← Data.entriesOf given
      events.mapM fun e => Definition.eventOfData e.1 e.2) :=
  (meets_entriesOf given).bind fun _ hes => meets_entries hes fun e =>
    (meets_toText e.1).bind fun _ _ => (meets_toText e.2).bind_pure _

theorem meets_definition_mapping (name : Data) (es : List (Data × Data)) :
    Meets (definitionProblems (.mapping es)) (Definition.ofData name (.mapping es)) := by
  refine (meets_pairsOf _).bind fun _ _ => ?_
  change Meets _ (Data.entriesOf _ >>= fun events => _ >>= fun _ => _)
  rw [← bind_assoc]
  exact (meets_events _).bind_pure _

theorem meets_definition (name d : Data) :
    Meets (definitionProblems d) (Definition.ofData name d) := by
  by_cases hmapping : ∃ es, d = .mapping es
  · obtain ⟨es, rfl⟩ := hmapping
    exact meets_definition_mapping name es
  · have hne : ∀ es, d = .mapping es → False := fun es h => hmapping ⟨es, h⟩
    simp only [definitionProblems, Definition.ofData]
    by_cases htruthy : d.truthy = true
    · simp only [htruthy, if_true]
      -- The message tells the name, unless that cannot be written. Both are bad values.
      rw [Data.toText]
      split
      · exact meets_error rfl (by decide)
      · exact meets_error rfl (by decide)
    · simp only [htruthy]
      exact meets_definition_mapping name []

/-! ### Registries -/

/-- What is wrong with the parts of a registry, in the order in which they are read. -/
def partProblems (d : Data) : List FaultKind :=
  entriesProblems (d.orNothing "widgets")
    ++ ((entries (d.orNothing "widgets")).flatMap (fun e => definitionProblems e.2)
    ++ (entriesProblems (d.orNothing "style_names")
    ++ ((entries (d.orNothing "style_names")).flatMap (fun e => styleProblems e.2)
    ++ pairsProblems (d.orNothing "aliases"))))

/-- What is wrong with the data of a registry. Nothing is read like an empty mapping. -/
def problems : Data → List FaultKind
  | .null => partProblems (.mapping [])
  | .mapping es => partProblems (.mapping es)
  | _ => [.badValue]

/-- Values that are read keep their names. -/
theorem meets_readEntries {γ : Type} {given : Option Data} {es : List (Data × Data)}
    {itemProblems : Data → List FaultKind} {read : Data → Data → Except Fault γ}
    (hes : Data.entriesOf given = .ok es) (h : ∀ name d, Meets (itemProblems d) (read name d)) :
    Meets ((entries given).flatMap fun e => itemProblems e.2) (readEntries read es) :=
  meets_entries hes fun e => (h e.1 e.2).map _

theorem meets_ofData_mapping (es : List (Data × Data)) :
    Meets (problems (.mapping es)) (ofData (.mapping es)) :=
  (meets_entriesOf _).bind fun _ hwidgets =>
    (meets_readEntries hwidgets meets_definition).bind fun _ _ =>
    (meets_entriesOf _).bind fun _ hstyles =>
    (meets_readEntries hstyles fun _ d => meets_styleNamesOfData d).bind fun _ _ =>
    (meets_pairsOf _).bind_pure _

theorem meets_ofData (d : Data) : Meets (problems d) (ofData d) := by
  match d with
  | .null => exact meets_ofData_mapping []
  | .mapping es => exact meets_ofData_mapping es
  | .bool _ | .int _ | .float _ | .text _ | .bytes _ | .day _ | .moment _ | .pair .. | .list _
  | .set _ => exact meets_error rfl (by decide)

theorem map_fst_of_readEntries {γ : Type} {es : List (Data × Data)} {vs : List (Data × γ)}
    {read : Data → Data → Except Fault γ} (h : readEntries read es = .ok vs) :
    vs.map Prod.fst = es.map Prod.fst := by
  rw [readEntries, mapM_eq_ok_iff] at h
  induction h with
  | nil => rfl
  | @cons e _ _ _ hv _ ih =>
    cases hread : read e.1 e.2 with
    | error fault =>
      rw [hread] at hv
      cases hv
    | ok v =>
      rw [hread] at hv
      obtain rfl := Except.ok.inj hv
      rw [List.map_cons, List.map_cons, ih]

/-- A registry defines exactly the types whose names the data has, as far as these are texts. -/
def IsAllowed (d : Data) (r : Registry) : Prop :=
  ∀ name, r.knows name = true
    ↔ Data.text name ∈ (entries (d.orNothing "widgets")).map Prod.fst

theorem mem_names_textEntries {ν : Type} {es : List (Data × ν)} {name : String} :
    name ∈ (Data.textEntries es).map Prod.fst ↔ Data.text name ∈ es.map Prod.fst := by
  have htext : ∀ d : Data, d.text? = some name ↔ d = .text name := by
    intro d
    cases d <;> simp [Data.text?]
  simp only [Data.textEntries, List.map_filterMap, List.mem_filterMap, List.mem_map,
    Option.map_map, Option.map_eq_some_iff, Function.comp_apply, exists_eq_right, htext]

theorem isAllowed_of_ofData_mapping {es : List (Data × Data)} {r : Registry}
    (h : ofData (.mapping es) = .ok r) : IsAllowed (.mapping es) r := by
  obtain ⟨d, hd, h⟩ := exists_of_bind_eq_ok h
  obtain rfl := Except.ok.inj hd
  obtain ⟨widgets, hwidgets, h⟩ := exists_of_bind_eq_ok h
  obtain ⟨definitions, hdefinitions, h⟩ := exists_of_bind_eq_ok h
  obtain ⟨_, -, h⟩ := exists_of_bind_eq_ok h
  obtain ⟨_, -, h⟩ := exists_of_bind_eq_ok h
  obtain ⟨_, -, h⟩ := exists_of_bind_eq_ok h
  obtain rfl := Except.ok.inj h
  intro name
  rw [entriesOf_eq_ok hwidgets, ← map_fst_of_readEntries hdefinitions, ← mem_names_textEntries,
    knows, Ledger.contains_iff, Ledger.ofList, Ledger.mem_keys_insertAll]
  exact or_iff_right (List.not_mem_nil)

theorem isAllowed_of_ofData {d : Data} {r : Registry} (h : ofData d = .ok r) : IsAllowed d r := by
  match d with
  | .null => exact @isAllowed_of_ofData_mapping [] r h
  | .mapping es => exact isAllowed_of_ofData_mapping h
  | .bool _ | .int _ | .float _ | .text _ | .bytes _ | .day _ | .moment _ | .pair .. | .list _
  | .set _ => cases h

end Registry

end Otui
