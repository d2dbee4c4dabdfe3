import Otui.Document.Printer
import Otui.Layout
import Otui.Proofs.AlikeForests
import Otui.Proofs.Faults
import Otui.Proofs.Recording
import Otui.Widget.Transport

/-!
# Widgets that travel as data

What was written as data is read back as it was: each part of a widget has a lemma that reads back
what was written of it, and an element is put together from its parts (`Element.ofData_toEntries`).
Absent and empty stay apart, because an absent part travels as nothing at all and an empty one as an
empty list or mapping. The children of a widget travel inside it, so the induction is over forests
(`Widget.allOfData_allToData`).
-/

namespace Otui

/-! ### Values -/

namespace Data

/-- The entries of a record are read back, with their names as they were. -/
theorem asEntries_record (es : List (String × Data)) : asEntries (some (.record es)) = .ok es := by
  simp only [record, asEntries, List.map_map]
  exact congrArg Except.ok (List.map_id'' (fun _ => rfl) es)

/-- A map of texts is read back, whatever its names and their order. -/
theorem asTexts_textsToData (m : Ledger String) : asTexts (some (textsToData m)) = .ok m := by
  have hpairs : (m.entries.map fun e => (e.1, Data.text e.2)).map (fun e => (e.1, e.2.asText))
      = m.entries := by
    rw [List.map_map]
    exact List.map_id'' (fun _ => rfl) _
  have hledger : Ledger.ofList m.entries = m :=
    Ledger.ext_entries (Ledger.entries_ofList m.nodup)
  simp only [textsToData, ofLedger, asTexts, asEntries_record, Except.map, hpairs, hledger]

theorem asText?_ofOption (s : Option String) : asText? (some (ofOption .text s)) = s := by
  cases s <;> rfl

theorem asBool?_ofOption (b : Option Bool) : asBool? (some (ofOption .bool b)) = b := by
  cases b <;> rfl

end Data

/-! ### Parts of an element -/

/-- A property line is read back, with its number. -/
theorem PropertyLine.ofData_toData (l : PropertyLine) : ofData l.toData = .ok l := rfl

/-- A placement is read back measure by measure. -/
theorem Placement.ofData_toData (p : Placement Float) : ofData p.toData = p := rfl

theorem TemplateRef.ofData?_ofOption (t : Option TemplateRef) :
    ofData? (some (.ofOption
      (fun t => .record [("name", .text t.name), ("base_type", .text t.base)]) t)) = t := by
  cases t <;> rfl

/-- Anchors are read back; no anchors and an empty list of them stay apart. -/
theorem Element.anchorsOfData?_ofOption (anchors : Option (List (String × String))) :
    anchorsOfData? (some (.ofOption
      (fun as => .list (as.map fun a => .list [.text a.1, .text a.2])) anchors)) = .ok anchors := by
  cases anchors with
  | none => rfl
  | some as =>
    simp only [Data.ofOption, anchorsOfData?, Data.asList, bind, Except.bind]
    -- each pair is read back by evaluation
    rw [mapM_map_eq_ok as]
    · rfl
    · exact fun _ _ => rfl

/-- Margins are read back; no margins and an empty map of them stay apart. -/
theorem Element.marginsOfData?_ofOption (margins : Option (Ledger Int)) :
    marginsOfData? (some (.ofOption (.ofLedger .int) margins)) = .ok margins := by
  cases margins with
  | none => rfl
  | some m =>
    have hledger : Ledger.ofList m.entries = m :=
      Ledger.ext_entries (Ledger.entries_ofList m.nodup)
    simp only [Data.ofOption, Data.ofLedger, marginsOfData?, Data.record]
    change ((Data.asEntries (some (.record _)) >>= _ : Except Fault (Option (Ledger Int)))) = _
    rw [Data.asEntries_record]
    simp only [bind, Except.bind]
    rw [mapM_map_eq_ok m.entries]
    · exact congrArg (fun m => Except.ok (some m)) hledger
    · exact fun _ _ => rfl

/-- The property lines, the values and the keys as written are read back from any data that has
them. -/
theorem Properties.ofData_eq_ok {d : Data} {p : Properties}
    (hlines : d.get? "property_list" = some (.list (p.lines.map PropertyLine.toData)))
    (hvalues : d.get? "properties" = some (textsToData p.values))
    (hwritten : d.get? "original_keys" = some (textsToData p.written)) :
    Properties.ofData d = .ok p := by
  rw [ofData, hlines, hvalues, hwritten, Data.asTexts_textsToData, Data.asTexts_textsToData]
  simp only [Data.asList, bind, Except.bind]
  rw [mapM_map_eq_ok p.lines fun l _ => PropertyLine.ofData_toData l]
  rfl

namespace Element

/-- **An element** is read back from its entries, whatever stands for its children. -/
theorem ofData_toEntries (e : Element Float) (children : Data) :
    Element.ofData (.record (e.toEntries children)) (.text e.type) e.properties = .ok e := by
  have hanchors : Data.get? (.record (e.toEntries children)) "original_anchors"
      = some (.ofOption (fun as => .list (as.map fun a => .list [.text a.1, .text a.2]))
          e.anchors) := rfl
  have hmargins : Data.get? (.record (e.toEntries children)) "original_margins"
      = some (.ofOption (.ofLedger .int) e.margins) := rfl
  rw [Element.ofData, hanchors, hmargins, anchorsOfData?_ofOption, marginsOfData?_ofOption]
  refine congrArg Except.ok ?_
  -- every other part is an entry of its own
  obtain ⟨type, surface, base, id, properties, template, placement, anchors, margins, sized,
    inherited⟩ := e
  refine (Element.mk.injEq ..).mpr ⟨rfl, Data.asText?_ofOption surface, Data.asText?_ofOption base,
    Data.asText?_ofOption id, rfl, TemplateRef.ofData?_ofOption template, ?_, rfl, rfl,
    Data.asBool?_ofOption sized, rfl⟩
  cases placement <;> rfl

end Element

namespace Widget

/-- **A widget** is read back when its children are. -/
theorem ofData_node (e : Element Float) {cs : List (Widget Float)}
    (h : allOfData (allToData cs) = .ok cs) : ofData (toData (.node e cs)) = .ok (.node e cs) := by
  have hproperties : Properties.ofData (.record (e.toEntries (.list (allToData cs))))
      = .ok e.properties := Properties.ofData_eq_ok rfl rfl rfl
  have hchildren : childrenIn ((e.toEntries (.list (allToData cs))).map
      fun e => (.text e.1, e.2)) = .ok cs := by
    simpa [Element.toEntries, childrenIn, Data.text?, ofList] using h
  have helement := Element.ofData_toEntries e (.list (allToData cs))
  rw [Data.record] at hproperties
  rw [toData, Data.record, ofData, hproperties, hchildren]
  exact congrArg (Except.map fun e => Tree.node e cs) helement

/-- Widgets are read back with all below them. -/
theorem allOfData_allToData (ws : List (Widget Float)) : allOfData (allToData ws) = .ok ws := by
  induction ws using Tree.forest_induction with
  | nil => rfl
  | cons e cs ws ihc ihw =>
    rw [allToData, allOfData, ofData_node e ihc, ihw]
    rfl

theorem ofData_toData (w : Widget Float) : ofData (toData w) = .ok w := by
  cases w with
  | node e cs => exact ofData_node e (allOfData_allToData cs)

end Widget

/-! ### Templates and documents -/

/-- A template is read back with the widgets of its body. -/
theorem Template.ofData_toData (t : Template Float) : Template.ofData t.toData = .ok t := by
  have hproperties : Properties.ofData t.toData = .ok t.properties :=
    Properties.ofData_eq_ok rfl rfl rfl
  have hresolved := Data.asText?_ofOption t.resolvedBase
  have hchildren := Widget.allOfData_allToData t.children
  rw [Template.ofData, hproperties]
  refine Eq.trans (b := Except.map (fun ws => { t with
    resolvedBase := Data.asText? (some (.ofOption .text t.resolvedBase)), children := ws })
    (Widget.allOfData (Widget.allToData t.children))) rfl ?_
  rw [hresolved, hchildren]
  rfl

namespace Document

/-- A document that has travelled as data: its widgets and templates, written and read again. -/
def transported (d : Document Float) : Except Fault (Document Float) := do
  let widgets ← Widget.allOfData (Widget.allToData d.widgets)
  let templates ← (d.templates.map Template.toData).mapM Template.ofData
  return { widgets, templates }

end Document

/-- **Transport loses nothing**: every widget, with all below it, and every template is read back
from its data as it was. So a document that has travelled is written as the same text with the same
notices, and its widgets are placed in the same way. -/
theorem transported_unchanged :
    (∀ w : Widget Float, Widget.ofData (Widget.toData w) = .ok w)
      ∧ (∀ t : Template Float, Template.ofData t.toData = .ok t)
      ∧ ∀ (d : Document Float) (config : Config Float),
          d.transported.map (Document.print config) = .ok (d.print config)
            ∧ ∀ origin, d.transported.map (fun d => layout config origin d.widgets)
                = .ok (layout config origin d.widgets) := by
  have hdocument (d : Document Float) : d.transported = .ok d := by
    have htemplates := mapM_map_eq_ok d.templates fun t _ => Template.ofData_toData t
    rw [Document.transported, Widget.allOfData_allToData, htemplates]
    rfl
  refine ⟨Widget.ofData_toData, Template.ofData_toData, fun d config => ?_⟩
  rw [hdocument]
  exact ⟨rfl, fun _ => rfl⟩

end Otui
