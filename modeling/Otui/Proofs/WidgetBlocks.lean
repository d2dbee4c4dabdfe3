import Otui.Proofs.Faults
import Otui.Proofs.SaidOnce

/-!
# The block of a template and of a widget

The block of a template grows from its header, that of a widget from its header and its id; then a
widget gets a size if its properties say none, and anchors and margins if it is not a root. In the end
neither says anything twice (`Template.saysOnce_templateBlock`, `Element.saysOnce_widgetBlock`), and it
is known where the last lines of a widget come from (`Element.isPlacedByLines_widgetBlock`).
-/

namespace Otui

open Otui.Document

variable {α : Type}

/-! ### Templates -/

/-- The block of a template grows from its header. -/
theorem Template.grows_templateBlock {t : Template α} (h : t.properties.HavePlainKeys) :
    Block.Grows (fun _ => True) ⟨[.header t.name (some t.base)], []⟩ (templateBlock t) := by
  unfold templateBlock
  split
  · exact Block.grows_addValues h.stored h.written (fun _ _ _ => trivial) _
  · exact Block.grows_addLines (fun _ _ => trivial) _

/-- **The block of a template** says nothing twice. -/
theorem Template.saysOnce_templateBlock {t : Template α} (h : t.properties.HavePlainKeys) :
    (templateBlock t).SaysOnce := by
  have hgrows := grows_templateBlock h
  have hstart : (⟨[.header t.name (some t.base)], []⟩ : Block).Tracks fun _ => True :=
    ⟨by simp [Block.subjects, Said.subject?], by simp, .nil⟩
  have htracks := hstart.grows hgrows fun _ _ _ _ _ _ => trivial
  refine ⟨htracks.distinct, htracks.whole, fun width height hsize => ?_⟩
  have hheader := List.mem_singleton.1 (hgrows.size_mem hsize)
  cases hheader

/-! ### Widgets -/

/-- A widget whose properties have plain keys and whose anchors have keys of anchors. -/
structure Element.HasPlainKeys (e : Element α) : Prop where
  /-- The properties have plain keys. -/
  properties : e.properties.HavePlainKeys
  /-- The keys of anchors are those of anchors. -/
  anchors : ∀ a ∈ e.anchors.getD [], Key.isAnchor a.1 = true

instance (e : Element α) : Decidable e.HasPlainKeys :=
  decidable_of_iff
    (e.properties.HavePlainKeys ∧ ∀ a ∈ e.anchors.getD [], Key.isAnchor a.1 = true)
    ⟨fun h => ⟨h.1, h.2⟩, fun h => ⟨h.properties, h.anchors⟩⟩

namespace Element

/-- What stands in front of the properties of a widget: its header and, if it is written, its id. -/
def front (isRoot : Bool) (e : Element α) : List Said :=
  header e :: if writesId isRoot e then [.id (textOrEmpty e.id)] else []

variable {e : Element α} {isRoot : Bool}

theorem exists_header (e : Element α) : ∃ name base, header e = .header name base := by
  unfold header
  split
  · exact ⟨_, _, rfl⟩
  · dsimp only
    split <;> exact ⟨_, _, rfl⟩

/-- Behind the header there is at most the id. -/
theorem exists_front (isRoot : Bool) (e : Element α) :
    ∃ name base ids, e.front isRoot = .header name base :: ids ∧ ∀ s ∈ ids, ∃ id, s = .id id := by
  obtain ⟨name, base, hheader⟩ := e.exists_header
  refine ⟨name, base, _, congrArg (· :: _) hheader, fun s hs => ?_⟩
  split at hs
  · exact ⟨_, List.mem_singleton.1 hs⟩
  · cases hs

theorem tracks_front (isRoot : Bool) (e : Element α) :
    (⟨e.front isRoot, []⟩ : Block).Tracks (· ≠ "id") := by
  have hheader : (header e).subject? = none := by
    obtain ⟨name, base, hheader⟩ := e.exists_header
    rw [hheader]
    rfl
  have hsubjects : (⟨e.front isRoot, []⟩ : Block).subjects
      = if writesId isRoot e then ["id"] else [] := by
    rw [Block.subjects, front, List.filterMap_cons_none hheader]
    split <;> rfl
  have hcovered : Block.covered "id" = ["id"] := by decide
  refine ⟨?_, by simp, ?_⟩
  · rw [hsubjects]
    split
    · simp [hcovered]
    · simp
  · rw [hsubjects]
    split <;> simp

/-- The properties of a widget are about other things than the id. -/
theorem grows_propertyBlock (h : e.HasPlainKeys) (isRoot : Bool) :
    Block.Grows (fun s => s.subject? ≠ some "id") ⟨e.front isRoot, []⟩ (propertyBlock isRoot e) := by
  have hid : ∀ key value, Key.stored key ≠ "id" →
      (Said.property key value).subject? ≠ some "id" := by
    intro key value hkey heq
    exact hkey (Key.eq_of_spelling_eq (by decide) (Option.some.inj heq))
  unfold propertyBlock
  dsimp only
  split
  · refine Block.grows_addValues ?_ h.properties.written ?_ _
    · intro key hkey
      exact h.properties.stored key (Ledger.mem_keys_erase.1 hkey).1
    · rintro key value (hkey | hparts)
      · exact hid key value (Ledger.mem_keys_erase.1 hkey).2
      · obtain ⟨⟨first, second⟩, hparts⟩ := Option.isSome_iff_exists.1 hparts
        refine hid key value ?_
        rw [Key.stored_compound hparts]
        exact (Key.compound_plain hparts).2.2
  · refine Block.grows_addLines (fun l hl => ?_) _
    rw [List.mem_filter, bne_iff_ne] at hl
    exact hid l.key _ hl.2

theorem tracks_propertyBlock (h : e.HasPlainKeys) (isRoot : Bool) :
    (propertyBlock isRoot e).Tracks (· ≠ "id") := by
  refine (tracks_front isRoot e).grows (grows_propertyBlock h isRoot) ?_
  intro s hs key hkey k hk
  rcases Block.mem_covered.1 hk with rfl | ⟨first, second, hparts, hpart⟩
  · rw [Said.spelling_subject hkey]
    rintro rfl
    exact hs hkey
  · exact (Key.parts_plain hparts hpart).2.2.1

/-- No size is made up among the properties. -/
theorem not_size_propertyBlock (h : e.HasPlainKeys) (isRoot : Bool) (width height : String) :
    .size width height ∉ (propertyBlock isRoot e).lines := by
  intro hmem
  obtain ⟨name, base, ids, hfront, hids⟩ := e.exists_front isRoot
  have hmem := (grows_propertyBlock h isRoot).size_mem hmem
  rw [hfront, List.mem_cons] at hmem
  rcases hmem with hmem | hmem
  · cases hmem
  · obtain ⟨id, hid⟩ := hids _ hmem
    cases hid

end Element

/-! ### Sizes and places -/

section widgetBlock

variable [Scalar α] {config : Config α} {e : Element α} {b c : Block}

namespace Document

/-- What `withSize` does: nothing, or it adds a size to a block that says none. -/
theorem withSize_cases (h : withSize config e b = .ok c) :
    c = b ∨ saysSize b = false
      ∧ ∃ width height, c = { b with lines := b.lines ++ [.size width height] } := by
  unfold withSize at h
  split at h
  · exact .inl (Except.ok.inj h).symm
  · next hunsized =>
    rw [Bool.or_eq_true, not_or, Bool.not_eq_true] at hunsized
    obtain ⟨width, -, h⟩ := exists_of_bind_eq_ok h
    obtain ⟨height, -, h⟩ := exists_of_bind_eq_ok h
    exact .inr ⟨hunsized.1, width, height, (Except.ok.inj h).symm⟩

/-- The anchors and margins of a widget are those that it was read with, if any, or those of a fit for
its placement: that only when it was read with none and its block has no anchor. -/
theorem anchorsFor_cases {anchors : List (String × String)} {margins : List (String × Int)}
    (h : anchorsFor config e b = .ok (anchors, margins)) :
    (anchors = e.anchors.getD [] ∧ margins = (e.margins.getD {}).entries)
      ∨ (e.anchors = none ∧ e.margins = none ∧ b.keys.any Key.isAnchor = false
        ∧ ∃ p fit, e.placement = some p ∧ p.fit? config.threshold = .ok (some fit)
          ∧ anchors = fit.directives ∧ margins = fit.margins.map fun m => (m.1.name, m.2)) := by
  unfold anchorsFor at h
  split at h
  · cases h
    exact .inl ⟨rfl, rfl⟩
  · next hread =>
    rw [Bool.or_eq_true, not_or, Option.not_isSome_iff_eq_none, Option.not_isSome_iff_eq_none]
      at hread
    obtain ⟨hanchors, hmargins⟩ := hread
    have hnothing : (anchors, margins) = ([], []) →
        anchors = e.anchors.getD [] ∧ margins = (e.margins.getD {}).entries := by
      rintro ⟨⟩
      rw [hanchors, hmargins]
      exact ⟨rfl, rfl⟩
    split at h
    · exact .inl (hnothing (Except.ok.inj h).symm)
    · next hkeys =>
      split at h
      · exact .inl (hnothing (Except.ok.inj h).symm)
      · next p hp =>
        obtain ⟨fit?, hfit, h⟩ := exists_of_bind_eq_ok h
        split at h
        · exact .inl (hnothing (Except.ok.inj h).symm)
        · next fit =>
          cases h
          refine .inr ⟨hanchors, hmargins, Bool.not_eq_true _ ▸ hkeys, p, fit, hp, ?_, rfl, rfl⟩
          cases hp : p.fit? config.threshold with
          | error fault =>
            rw [hp] at hfit
            cases hfit
          | ok found =>
            rw [hp] at hfit
            cases hfit
            rfl

/-- The block of a widget is that of its properties, with a size if it says none, and grows by
anchors and margins if the widget is not a root. -/
theorem widgetBlock_cases {isRoot : Bool} (h : widgetBlock config isRoot e = .ok b) :
    ∃ c, withSize config e (propertyBlock isRoot e) = .ok c
      ∧ ((isRoot = true ∧ b = c) ∨ (isRoot = false ∧ ∃ anchors margins,
        anchorsFor config e c = .ok (anchors, margins) ∧ b = c.addAnchors anchors margins)) := by
  obtain ⟨c, hc, h⟩ := exists_of_bind_eq_ok h
  refine ⟨c, hc, ?_⟩
  cases isRoot with
  | true => exact .inl ⟨rfl, (Except.ok.inj h).symm⟩
  | false =>
    obtain ⟨⟨anchors, margins⟩, hanchors, h⟩ := exists_of_bind_eq_ok h
    exact .inr ⟨rfl, anchors, margins, hanchors, (Except.ok.inj h).symm⟩

/-- Lines for anchors and margins are about places. -/
theorem Block.isPlace_of_mem_placeLines {anchors : List (String × String)}
    {margins : List (String × Int)} (hanchors : ∀ a ∈ anchors, Key.isAnchor a.1 = true) {s : Said}
    (hs : s ∈ placeLines anchors margins) {k : String} (hk : s.subject? = some k) :
    Key.isPlace k = true := by
  rcases List.mem_append.1 hs with hs | hs
  · obtain ⟨a, ha, rfl⟩ := List.mem_map.1 hs
    cases hk
    rw [Key.stored_of_isAnchor (hanchors a ha), Key.isPlace, Key.isAnchor_spelling, hanchors a ha,
      Bool.true_or]
  · obtain ⟨m, -, rfl⟩ := List.mem_map.1 hs
    cases hk
    rw [Key.stored_margin, Key.spelling_of_not_isAnchor (Key.not_isAnchor_margin m.1)]
    exact Key.isPlace_margin m.1

theorem Fit.isAnchor_directives (fit : Fit) : ∀ a ∈ fit.directives, Key.isAnchor a.1 = true := by
  intro a ha
  obtain ⟨edge, -, rfl⟩ := List.mem_map.1 ha
  exact Key.startsWith_append Key.anchorFront edge.name

/-- The anchors that a widget gets have keys of anchors. -/
theorem isAnchor_anchorsFor (he : e.HasPlainKeys) {anchors : List (String × String)}
    {margins : List (String × Int)} (h : anchorsFor config e b = .ok (anchors, margins)) :
    ∀ a ∈ anchors, Key.isAnchor a.1 = true := by
  rcases anchorsFor_cases h with ⟨rfl, -⟩ | ⟨-, -, -, _, fit, -, -, rfl, -⟩
  · exact he.anchors
  · exact Fit.isAnchor_directives fit

namespace Block

theorem not_has_of_isAnchor (hb : b.keys.any Key.isAnchor = false) {key : String}
    (hkey : Key.isAnchor key = true) : b.has key = false := by
  rw [Bool.eq_false_iff]
  intro hhas
  have hany : b.keys.any Key.isAnchor = true := by
    rw [List.any_eq_true]
    exact ⟨Key.spelling key, List.contains_iff_mem.1 hhas, by rw [Key.isAnchor_spelling, hkey]⟩
  rw [hb] at hany
  cases hany

theorem addAnchors_cons {key : String} (h : b.has key = false) (value : String)
    (anchors : List (String × String)) (margins : List (String × Int)) :
    b.addAnchors ((key, value) :: anchors) margins
      = (b.add key key value).addAnchors anchors margins := by
  have hadd : b.addNew key key value = b.add key key value := by
    rw [addNew, if_neg (by simp [h])]
  rw [← hadd]
  rfl

/-- Margins are no anchors. -/
theorem exists_addAnchors_nil (b : Block) (margins : List (String × Int)) :
    ∃ added, (b.addAnchors [] margins).lines = b.lines ++ added
      ∧ (∀ s ∈ added, s ∈ placeLines [] margins)
      ∧ (added.filterMap Said.subject?).filter Key.isAnchor = [] := by
  have hgrows : Grows (· ∈ placeLines [] margins) b (b.addAnchors [] margins) :=
    grows_addAnchors (by simp) margins b
  obtain ⟨added, hlines, hadded⟩ := hgrows.exists_lines
  refine ⟨added, hlines, fun s hs => (hadded s hs).1, ?_⟩
  rw [List.filter_eq_nil_iff]
  intro k hk
  obtain ⟨s, hs, hsk⟩ := List.mem_filterMap.1 hk
  obtain ⟨m, -, rfl⟩ := List.mem_map.1 (hadded s hs).1
  cases hsk
  rw [Key.isAnchor_spelling, Key.stored_margin, Key.not_isAnchor_margin]
  exact Bool.false_ne_true

/-- A block without an anchor gets both anchors of a fit. -/
theorem exists_addAnchors_directives (hb : b.keys.any Key.isAnchor = false) (fit : Fit)
    (margins : List (String × Int)) :
    ∃ added, (b.addAnchors fit.directives margins).lines = b.lines ++ added
      ∧ (∀ s ∈ added, s ∈ placeLines fit.directives margins)
      ∧ (added.filterMap Said.subject?).filter Key.isAnchor
        = [Key.anchorFront ++ Edge.name ⟨.horizontal, fit.horizontal.spot⟩,
          Key.anchorFront ++ Edge.name ⟨.vertical, fit.vertical.spot⟩] := by
  obtain ⟨⟨x, xmargin⟩, ⟨y, ymargin⟩⟩ := fit
  have hdirectives : Fit.directives ⟨⟨x, xmargin⟩, ⟨y, ymargin⟩⟩
      = [(Key.anchorFront ++ Edge.name ⟨.horizontal, x⟩, "parent." ++ Edge.name ⟨.horizontal, x⟩),
        (Key.anchorFront ++ Edge.name ⟨.vertical, y⟩, "parent." ++ Edge.name ⟨.vertical, y⟩)] := rfl
  -- both keys are those of anchors in the spelling in use, and they differ
  obtain ⟨hanchor, hspelled, vanchor, vspelled, hdiffer⟩ :
      Key.isAnchor (Key.anchorFront ++ Edge.name ⟨.horizontal, x⟩) = true
        ∧ Key.spelling (Key.anchorFront ++ Edge.name ⟨.horizontal, x⟩)
          = Key.anchorFront ++ Edge.name ⟨.horizontal, x⟩
        ∧ Key.isAnchor (Key.anchorFront ++ Edge.name ⟨.vertical, y⟩) = true
        ∧ Key.spelling (Key.anchorFront ++ Edge.name ⟨.vertical, y⟩)
          = Key.anchorFront ++ Edge.name ⟨.vertical, y⟩
        ∧ Key.anchorFront ++ Edge.name ⟨.vertical, y⟩
          ≠ Key.anchorFront ++ Edge.name ⟨.horizontal, x⟩ := by
    cases x <;> cases y <;> decide
  rw [hdirectives]
  generalize Key.anchorFront ++ Edge.name ⟨.horizontal, x⟩ = h at *
  generalize Key.anchorFront ++ Edge.name ⟨.vertical, y⟩ = v at *
  generalize "parent." ++ Edge.name ⟨.horizontal, x⟩ = hvalue at *
  generalize "parent." ++ Edge.name ⟨.vertical, y⟩ = vvalue at *
  have hsecond : (b.add h h hvalue).has v = false := by
    have hcovered : covered h = [h] := by
      rw [covered_of_none (Key.plain_of_isPlace (by rw [Key.isPlace, hanchor]; rfl)).1,
        hspelled]
    have hnot := not_has_of_isAnchor hb vanchor
    simp only [has, add, hcovered, vspelled] at hnot ⊢
    simpa [hdiffer] using hnot
  rw [addAnchors_cons (not_has_of_isAnchor hb hanchor), addAnchors_cons hsecond]
  obtain ⟨added, hlines, hadded, hmargins⟩ :=
    exists_addAnchors_nil ((b.add h h hvalue).add v v vvalue) margins
  refine ⟨.property h hvalue :: .property v vvalue :: added, ?_, ?_, ?_⟩
  · rw [hlines, add, add, List.append_assoc, List.append_assoc]
    rfl
  · simp only [List.forall_mem_cons]
    exact ⟨by simp [placeLines], by simp [placeLines],
      fun s hs => List.mem_append_right _ (hadded s hs)⟩
  · simp [Said.subject?, Key.stored_of_isAnchor, hanchor, vanchor, hspelled, vspelled, hmargins]

end Block

end Document

namespace Element

variable {isRoot : Bool}

/-- With its size, a block keeps track as long as it grows by anchors and margins. -/
theorem tracks_withSize (he : e.HasPlainKeys)
    (h : withSize config e (propertyBlock isRoot e) = .ok c) :
    c.Tracks (Key.isPlace · = true) := by
  have htracks := tracks_propertyBlock he isRoot
  have hplaces : (propertyBlock isRoot e).Tracks (Key.isPlace · = true) :=
    htracks.mono fun k hk => (Key.plain_of_isPlace hk).2.1
  rcases withSize_cases h with rfl | ⟨hunsized, width, height, rfl⟩
  · exact hplaces
  · have hsubjects := Block.subjects_append (propertyBlock isRoot e) [.size width height]
      (propertyBlock isRoot e).keys
    have hcovered : Block.covered "size" = ["size", "width", "height"] := by decide
    have hsize : "size" ∉ (propertyBlock isRoot e).keys := by
      intro hmem
      simp [saysSize, hmem] at hunsized
    constructor
    · rw [hsubjects, List.forall_mem_append]
      refine ⟨hplaces.known, fun s hs k hk hplace => ?_⟩
      have hsame : s = "size" := by simpa [Said.subject?] using hs
      rw [hsame, hcovered] at hk
      exact absurd hk (Key.plain_of_isPlace hplace).2.2
    · intro k hk
      obtain ⟨s, hs, hks⟩ := hplaces.said k hk
      rw [hsubjects]
      exact ⟨s, List.mem_append_left _ hs, hks⟩
    · rw [hsubjects, List.pairwise_append]
      refine ⟨htracks.fresh, List.pairwise_singleton _ _, fun s hs k hk hmem => hsize ?_⟩
      have hsame : k = "size" := by simpa [Said.subject?] using hk
      rw [hsame] at hmem
      exact htracks.known s hs "size" hmem (by decide)

/-- A widget grows by anchors and margins when it has its size. -/
theorem exists_grows_widgetBlock (he : e.HasPlainKeys)
    (h : widgetBlock config isRoot e = .ok b) :
    ∃ c, withSize config e (propertyBlock isRoot e) = .ok c
      ∧ Block.Grows (fun s => ∀ k, s.subject? = some k → Key.isPlace k = true) c b := by
  obtain ⟨c, hc, ⟨-, rfl⟩ | ⟨-, anchors, margins, hanchors, rfl⟩⟩ := widgetBlock_cases h
  · exact ⟨b, hc, .refl⟩
  · have hkeys := isAnchor_anchorsFor he hanchors
    refine ⟨c, hc, (Block.grows_addAnchors hkeys margins c).mono fun s hs k hk => ?_⟩
    exact Block.isPlace_of_mem_placeLines hkeys hs hk

/-- A size is made up only where nothing is said about the size. -/
theorem sized_withSize (he : e.HasPlainKeys) (h : withSize config e (propertyBlock isRoot e) = .ok c)
    {width height : String} (hmem : .size width height ∈ c.lines) :
    c.subjects.filter (["size", "width", "height"].contains ·) = ["size"] := by
  rcases withSize_cases h with rfl | ⟨hunsized, w, h', rfl⟩
  · exact absurd hmem (not_size_propertyBlock he isRoot width height)
  · have hbefore : (propertyBlock isRoot e).subjects.filter
        (["size", "width", "height"].contains ·) = [] := by
      rw [List.filter_eq_nil_iff]
      intro k hk hsize
      have hid : k ≠ "id" := by
        rintro rfl
        exact absurd hsize (by decide)
      have hkeys := (tracks_propertyBlock he isRoot).mem_keys hk hid
      have hsaid : saysSize (propertyBlock isRoot e) = true := by
        rw [saysSize, List.any_eq_true]
        exact ⟨k, List.contains_iff_mem.1 hsize, List.contains_iff_mem.2 hkeys⟩
      rw [hsaid] at hunsized
      cases hunsized
    rw [Block.subjects_append, List.filter_append, hbefore]
    rfl

/-- **The block of a widget** says nothing twice. -/
theorem saysOnce_widgetBlock (he : e.HasPlainKeys) (h : widgetBlock config isRoot e = .ok b) :
    b.SaysOnce := by
  obtain ⟨c, hc, hgrows⟩ := exists_grows_widgetBlock he h
  have htracks : b.Tracks (Key.isPlace · = true) := by
    refine (tracks_withSize he hc).grows hgrows fun s hs key hkey k hk => ?_
    have hplace := hs key hkey
    rw [Block.covered_of_none (Key.plain_of_isPlace hplace).1, Said.spelling_subject hkey,
      List.mem_singleton] at hk
    rwa [hk]
  refine ⟨htracks.distinct, htracks.whole, fun width height hsize => ?_⟩
  have hsized := sized_withSize he hc (hgrows.size_mem hsize)
  obtain ⟨added, hlines, hadded⟩ := hgrows.exists_lines
  have hafter : (added.filterMap Said.subject?).filter
      (["size", "width", "height"].contains ·) = [] := by
    rw [List.filter_eq_nil_iff]
    intro k hk hmem
    obtain ⟨s, hs, hsk⟩ := List.mem_filterMap.1 hk
    exact (Key.plain_of_isPlace ((hadded s hs).1 k hsk)).2.2 (List.contains_iff_mem.1 hmem)
  rw [Block.subjects] at hsized ⊢
  rw [hlines, List.filterMap_append, List.filter_append, hsized, hafter, List.append_nil]

/-- Where the lines come from that place a widget that is no root, after a block with all else: from
the anchors and margins that it was read with, or from a fit for its placement. -/
inductive IsPlacedByLines (config : Config α) (e : Element α) (b : Block) : List Said → Prop where
  /-- They are those that the widget was read with, if any. -/
  | read {ls : List Said}
      (lines : ∀ s ∈ ls, s ∈ Block.placeLines (e.anchors.getD []) (e.margins.getD {}).entries) :
      IsPlacedByLines config e b ls
  /-- They are those of a fit: the widget was read with no anchors and no margins, its properties have
  no anchor, and now it has one anchor on each axis. -/
  | inferred {ls : List Said} {p : Placement α} {fit : Fit}
      (anchors : e.anchors = none) (margins : e.margins = none)
      (unanchored : ∀ k ∈ b.subjects, Key.isAnchor k = false)
      (placement : e.placement = some p) (fits : p.fit? config.threshold = .ok (some fit))
      (lines : ∀ s ∈ ls, s ∈ Block.placeLines fit.directives
        (fit.margins.map fun m => (m.1.name, m.2)))
      (pair : ((b.lines ++ ls).filterMap Said.subject?).filter Key.isAnchor
        = [Key.anchorFront ++ Edge.name ⟨.horizontal, fit.horizontal.spot⟩,
          Key.anchorFront ++ Edge.name ⟨.vertical, fit.vertical.spot⟩]) :
      IsPlacedByLines config e b ls

/-- **Where the last lines of a widget that is no root come from.** -/
theorem isPlacedByLines_widgetBlock (he : e.HasPlainKeys) (h : widgetBlock config false e = .ok b) :
    ∃ c placed, withSize config e (propertyBlock false e) = .ok c ∧ b.lines = c.lines ++ placed
      ∧ e.IsPlacedByLines config c placed := by
  obtain ⟨c, hc, ⟨hroot, -⟩ | ⟨-, anchors, margins, hanchors, rfl⟩⟩ := widgetBlock_cases h
  · cases hroot
  · rcases anchorsFor_cases hanchors with
      ⟨rfl, rfl⟩ | ⟨hnone, hnone', hkeys, p, fit, hp, hfit, rfl, rfl⟩
    · obtain ⟨placed, hlines, hplaced⟩ := (Block.grows_addAnchors he.anchors _ c).exists_lines
      exact ⟨c, placed, hc, hlines, .read fun s hs => (hplaced s hs).1⟩
    · obtain ⟨placed, hlines, hplaced, hpair⟩ := Block.exists_addAnchors_directives hkeys fit
        (fit.margins.map fun m => (m.1.name, m.2))
      have hunanchored : ∀ k ∈ c.subjects, Key.isAnchor k = false := by
        intro k hk
        rw [Bool.eq_false_iff]
        intro hanchor
        have hmem : k ∈ c.keys :=
          (tracks_withSize he hc).mem_keys hk (by rw [Key.isPlace, hanchor, Bool.true_or])
        rw [List.any_eq_true.2 ⟨k, hmem, hanchor⟩] at hkeys
        cases hkeys
      refine ⟨c, placed, hc, hlines, .inferred hnone hnone' hunanchored hp hfit hplaced ?_⟩
      have hbefore : c.subjects.filter Key.isAnchor = [] :=
        List.filter_eq_nil_iff.2 fun k hk => by simp [hunanchored k hk]
      rw [Block.subjects] at hbefore
      rw [List.filterMap_append, List.filter_append, hbefore, hpair, List.nil_append]

end Element

end widgetBlock

/-! ### Headers -/

namespace Document

/-- A block that has its header in front, and behind it only lines that are about something. -/
def Block.IsHeaded (b : Block) : Prop :=
  ∃ name base rest, b.lines = .header name base :: rest ∧ ∀ s ∈ rest, s.subject?.isSome = true

theorem Block.IsHeaded.append {b c : Block} (h : b.IsHeaded) {added : List Said}
    (hlines : c.lines = b.lines ++ added) (hadded : ∀ s ∈ added, s.subject?.isSome = true) :
    c.IsHeaded := by
  obtain ⟨name, base, rest, hb, hrest⟩ := h
  refine ⟨name, base, rest ++ added, ?_, List.forall_mem_append.2 ⟨hrest, hadded⟩⟩
  rw [hlines, hb, List.cons_append]

theorem Block.IsHeaded.grows {b c : Block} (h : b.IsHeaded) {may : Said → Prop}
    (hg : Block.Grows may b c) : c.IsHeaded := by
  obtain ⟨added, hlines, hadded⟩ := hg.exists_lines
  refine h.append hlines fun s hs => ?_
  obtain ⟨-, key, value, rfl⟩ := hadded s hs
  rfl

theorem isHeaded_templateBlock {t : Template α} (h : t.properties.HavePlainKeys) :
    (templateBlock t).IsHeaded :=
  Block.IsHeaded.grows ⟨t.name, some t.base, [], rfl, by simp⟩ (Template.grows_templateBlock h)

theorem isHeaded_widgetBlock [Scalar α] {config : Config α} {e : Element α} (he : e.HasPlainKeys)
    {isRoot : Bool} {b : Block} (h : widgetBlock config isRoot e = .ok b) : b.IsHeaded := by
  have hfront : (⟨e.front isRoot, []⟩ : Block).IsHeaded := by
    obtain ⟨name, base, ids, hfront, hids⟩ := e.exists_front isRoot
    refine ⟨name, base, ids, hfront, fun s hs => ?_⟩
    obtain ⟨id, rfl⟩ := hids s hs
    rfl
  have hproperties := hfront.grows (e.grows_propertyBlock he isRoot)
  obtain ⟨c, hc, hgrows⟩ := Element.exists_grows_widgetBlock he h
  refine Block.IsHeaded.grows ?_ hgrows
  rcases withSize_cases hc with rfl | ⟨-, width, height, rfl⟩
  · exact hproperties
  · exact hproperties.append rfl (by simp [Said.subject?])

end Document

end Otui
