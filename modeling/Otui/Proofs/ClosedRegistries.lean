import Otui.Proofs.InheritedEvents

/-!
# The registry after reading

What a name is resolved to depends on the openings before it, because templates and made up types
come into the registry on the way. Still reading loses nothing that was known: new types come at the
end, and only a template of the same name replaces a definition (`Registry.ExtendsBy`). Other names
for types stay as they were, so a type that an opening was resolved to is resolved to itself from
then on (`Registry.IsSettled`). After reading, the registry therefore has all types that the
document uses, and no more than its openings asked for: `isClosed_read`.
-/

namespace Otui

open Otui.Text Otui.Document

variable {α : Type}

/-! ### Registries that grow -/

namespace Registry

/-- A registry that came from another, where templates of some names were declared on the way. -/
structure ExtendsBy (names : List String) (r s : Registry) : Prop where
  /-- The other names for types are the same. -/
  aliases : s.aliases = r.aliases
  /-- The types that were known are there, in their order, before the new ones. -/
  keys : r.definitions.keys <+: s.definitions.keys
  /-- A definition stays if no template took its name. -/
  kept : ∀ name definition, r.get? name = some definition → name ∉ names →
    s.get? name = some definition
  /-- The templates have definitions that nobody made up. -/
  templates : ∀ name ∈ names, ∃ definition, s.get? name = some definition
    ∧ definition.name = name ∧ definition.madeUp = false
  /-- All other new definitions are made up. -/
  others : ∀ name definition, s.get? name = some definition → r.knows name = false →
    name ∉ names → definition = makeUp name

theorem knows_of_get? {r : Registry} {name : String} {definition : Definition}
    (h : r.get? name = some definition) : r.knows name = true := by
  rw [← isSome_get?, h, Option.isSome_some]

namespace ExtendsBy

variable {names more : List String} {r s u : Registry}

theorem refl (r : Registry) : r.ExtendsBy [] r where
  aliases := rfl
  keys := List.prefix_refl _
  kept _ _ h _ := h
  templates _ h := by cases h
  others name definition h hnew _ := by
    rw [knows_of_get? h] at hnew
    cases hnew

theorem knows_of_knows (h : r.ExtendsBy names s) {name : String} (hname : r.knows name = true) :
    s.knows name = true := by
  simp only [knows, Ledger.contains_iff] at hname ⊢
  exact h.keys.subset hname

theorem knows_template (h : r.ExtendsBy names s) {name : String} (hname : name ∈ names) :
    s.knows name = true := by
  obtain ⟨definition, hd, -⟩ := h.templates name hname
  exact knows_of_get? hd

/-- What is added first and what is added later is all that is added. -/
theorem trans (h : r.ExtendsBy names s) (h' : s.ExtendsBy more u) :
    r.ExtendsBy (names ++ more) u where
  aliases := h'.aliases.trans h.aliases
  keys := h.keys.trans h'.keys
  kept name definition hr hname := by
    rw [List.mem_append, not_or] at hname
    exact h'.kept name definition (h.kept name definition hr hname.1) hname.2
  templates name hname := by
    by_cases hmore : name ∈ more
    · exact h'.templates name hmore
    · obtain ⟨definition, hs, hown⟩ := h.templates name
        ((List.mem_append.1 hname).resolve_right hmore)
      exact ⟨definition, h'.kept name definition hs hmore, hown⟩
  others name definition hu hnew hname := by
    rw [List.mem_append, not_or] at hname
    cases hs : s.get? name with
    | none =>
      have hs' : s.knows name = false := by rw [← isSome_get?, hs, Option.isSome_none]
      exact h'.others name definition hu hs' hname.2
    | some other =>
      have hsame := h'.kept name other hs hname.2
      rw [hu] at hsame
      cases hsame
      exact h.others name definition hs hnew hname.1

end ExtendsBy

/-- Making sure of a type adds at most a made up one. -/
theorem extendsBy_ensure (r : Registry) (type : String) :
    r.ExtendsBy [] (r.ensure type).value where
  aliases := by
    unfold ensure
    split <;> rfl
  keys := by
    unfold ensure
    split
    · exact List.prefix_refl _
    · next hk =>
      have hnew : type ∉ r.definitions.keys := by simpa [knows] using hk
      rw [Ledger.keys_insert, if_neg hnew]
      exact List.prefix_append _ _
  kept _ _ h _ := get?_ensure_of_eq_some h type
  templates _ h := by cases h
  others name definition h hnew _ := by
    have hnone := get?_eq_none hnew
    rw [get?_ensure] at h
    split at h
    · next htype =>
      subst htype
      rw [definitionOf, hnone, Option.getD_none] at h
      exact (Option.some.inj h).symm
    · rw [hnone] at h
      cases h

/-- A definition that is not made up is that of a template. -/
theorem extendsBy_insert (r : Registry) {definition : Definition} {name : String}
    (hname : definition.name = name) (hown : definition.madeUp = false) :
    r.ExtendsBy [name] { r with definitions := r.definitions.insert name definition } where
  aliases := rfl
  keys := by
    rw [Ledger.keys_insert]
    split
    · exact List.prefix_refl _
    · exact List.prefix_append _ _
  kept other _ h hother := by
    have hne : name ≠ other := fun he => hother (by simp [he])
    rwa [get?, Ledger.get?_insert, if_neg hne]
  templates other hother := by
    have he : name = other := (List.mem_singleton.1 hother).symm
    exact ⟨definition, by rw [get?, Ledger.get?_insert, if_pos he], hname.trans he, hown⟩
  others other _ h hnew hother := by
    have hne : name ≠ other := fun he => hother (by simp [he])
    rw [get?, Ledger.get?_insert, if_neg hne] at h
    rw [knows_of_get? h] at hnew
    cases hnew

/-- Declaring a template adds it, and its base if that was not known. -/
theorem extendsBy_registerTemplate (r : Registry) (name base : String) :
    r.ExtendsBy [name] (r.registerTemplate name base).value := by
  have hbase := r.extendsBy_ensure base
  simp only [registerTemplate, Noted.value_bind, Noted.value_pure]
  exact hbase.trans (extendsBy_insert _ rfl rfl)

/-! ### Types that stand for themselves -/

/-- A type that is known and that is no other name for a type. -/
structure IsSettled (r : Registry) (type : String) : Prop where
  /-- The type has a definition. -/
  knows : r.knows type = true
  /-- The type is no other name. -/
  unaliased : r.aliases.get? type = none

namespace IsSettled

variable {r s : Registry} {names : List String} {type : String}

/-- A settled type is resolved to itself. -/
theorem resolve_eq (h : r.IsSettled type) : r.resolve type = type := by
  simp [resolve, h.unaliased, h.knows]

/-- A settled type stays settled. -/
theorem extend (h : r.IsSettled type) (hs : r.ExtendsBy names s) : s.IsSettled type :=
  ⟨hs.knows_of_knows h.knows, by rw [hs.aliases]; exact h.unaliased⟩

end IsSettled

/-- No type with `UI` in front is another name for a type. -/
theorem unaliased_of_startsWith {type : String} (h : startsWith "UI" type = true) :
    packaged.aliases.get? type = none := by
  have hall : ∀ e ∈ packaged.aliases.entries, startsWith "UI" e.1 = false := by decide +kernel
  by_contra hne
  obtain ⟨other, hother⟩ := Option.ne_none_iff_exists'.1 hne
  have hbare := hall _ (Ledger.mem_of_get? hother)
  rw [h] at hbare
  cases hbare

/-- What a name is resolved to is no other name itself. -/
theorem unaliased_resolve {r : Registry} (h : r.aliases = packaged.aliases) (name : String) :
    r.aliases.get? (r.resolve name) = none := by
  rw [resolve, h]
  cases ha : packaged.aliases.get? name with
  | some type => exact unaliased_of_startsWith (startsWith_of_alias ha)
  | none =>
    dsimp only
    split
    · exact ha
    · split
      · exact ha
      · exact unaliased_of_startsWith (by simp [startsWith])

theorem knows_ensure (r : Registry) (type : String) : (r.ensure type).value.knows type = true := by
  have hget : (r.ensure type).value.get? type = some (r.definitionOf type) := by
    rw [get?_ensure, if_pos rfl]
  exact knows_of_get? hget

/-- The type of a widget is settled when its opening was met. -/
theorem isSettled_ensure {r : Registry} (h : r.aliases = packaged.aliases) (name : String) :
    (r.ensure (r.resolve name)).value.IsSettled (r.resolve name) where
  knows := r.knows_ensure _
  unaliased := by
    rw [(r.extendsBy_ensure _).aliases]
    exact unaliased_resolve h name

/-- The base of a template is settled when the opening of the template was met. -/
theorem isSettled_registerTemplate {r : Registry} (h : r.aliases = packaged.aliases)
    (name base : String) :
    (r.registerTemplate name (r.resolve base)).value.IsSettled (r.resolve base) where
  knows := by
    simp only [registerTemplate, Noted.value_bind, Noted.value_pure]
    rw [knows_insert]
    exact .inr (r.knows_ensure _)
  unaliased := by
    rw [(r.extendsBy_registerTemplate name _).aliases]
    exact unaliased_resolve h base

end Registry

/-! ### Reading -/

namespace Document

/-- What is true of every part of a document that was read, starting from a registry. -/
structure Reading.IsClosed (r : Registry) (reading : Reading α) : Prop where
  /-- The registry was extended by the templates of the part. -/
  registry : r.ExtendsBy (reading.templates.map Template.name) reading.registry
  /-- The types of the widgets are settled. -/
  widgets : ∀ e ∈ Tree.forestLabels reading.widgets, reading.registry.IsSettled e.type
  /-- So are the types of the widgets in the bodies of templates. -/
  bodies : ∀ t ∈ reading.templates, ∀ e ∈ Tree.forestLabels t.children,
    reading.registry.IsSettled e.type
  /-- The bases of the templates were resolved to settled types. -/
  bases : ∀ t ∈ reading.templates, ∃ base, t.resolvedBase = some base
    ∧ reading.registry.IsSettled base

theorem isClosed_nil (r : Registry) : Reading.IsClosed r (⟨[], [], r, []⟩ : Reading α) where
  registry := .refl r
  widgets := by simp
  bodies := by simp
  bases := by simp

/-- Parts that are read one after the other. -/
theorem isClosed_append {r : Registry} {first rest : Reading α} {notices : List (Nat × Notice)}
    (hf : first.IsClosed r) (hr : rest.IsClosed first.registry) :
    Reading.IsClosed r ⟨first.widgets ++ rest.widgets, first.templates ++ rest.templates,
      rest.registry, notices⟩ where
  registry := by
    rw [List.map_append]
    exact hf.registry.trans hr.registry
  widgets e he := by
    rw [Tree.forestLabels_append, List.mem_append] at he
    rcases he with he | he
    · exact (hf.widgets e he).extend hr.registry
    · exact hr.widgets e he
  bodies t ht e he := by
    rcases List.mem_append.1 ht with ht | ht
    · exact (hf.bodies t ht e he).extend hr.registry
    · exact hr.bodies t ht e he
  bases t ht := by
    rcases List.mem_append.1 ht with ht | ht
    · obtain ⟨base, hbase, hsettled⟩ := hf.bases t ht
      exact ⟨base, hbase, hsettled.extend hr.registry⟩
    · exact hr.bases t ht

/-- A widget with what was read inside it, after its type was made sure of. -/
theorem isClosed_node {r known : Registry} {inner : Reading α} {e : Element α}
    {notices : List (Nat × Notice)} (hknown : r.ExtendsBy [] known) (he : known.IsSettled e.type)
    (hi : inner.IsClosed known) :
    Reading.IsClosed r ⟨[.node e inner.widgets], inner.templates, inner.registry, notices⟩ where
  registry := hknown.trans hi.registry
  widgets e' he' := by
    simp only [Tree.forestLabels_cons, Tree.forestLabels_nil, List.append_nil, List.mem_cons] at he'
    rcases he' with rfl | he'
    · exact he.extend hi.registry
    · exact hi.widgets e' he'
  bodies := hi.bodies
  bases := hi.bases

/-- A template with what was read inside it, after it was declared. -/
theorem isClosed_template {r known : Registry} {inner : Reading α} {t : Template α} {base : String}
    {notices : List (Nat × Notice)} (hknown : r.ExtendsBy [t.name] known)
    (hbase : t.resolvedBase = some base) (hsettled : known.IsSettled base)
    (hchildren : t.children = inner.widgets) (hi : inner.IsClosed known) :
    Reading.IsClosed r ⟨[], t :: inner.templates, inner.registry, notices⟩ where
  registry := hknown.trans hi.registry
  widgets := by simp
  bodies u hu := by
    rcases List.mem_cons.1 hu with rfl | hu
    · rw [hchildren]
      exact hi.widgets
    · exact hi.bodies u hu
  bases u hu := by
    rcases List.mem_cons.1 hu with rfl | hu
    · exact ⟨base, hbase, hsettled.extend hi.registry⟩
    · exact hi.bases u hu

theorem type_storeAll (e : Element α) (ls : List OwnLine) : (e.storeAll ls).1.type = e.type := by
  obtain ⟨id, anchors, margins, sized, he⟩ := Element.storeAll_eq e ls
  rw [he]

mutual

/-- Whatever was declared before, a part of an outline leaves a registry with all types that it
uses. -/
theorem isClosed_readPart : ∀ (o : Outline) {r : Registry}, r.aliases = Registry.packaged.aliases →
    (readPart (α := α) o r).IsClosed r
  | .property .., r, _ => by
    rw [readPart]
    exact isClosed_nil r
  | .block name none number body, r, hr => by
    have hknown := r.extendsBy_ensure (r.resolve name)
    have hinner := isClosed_readParts body (hknown.aliases.trans hr)
    have htype : (r.ensure (r.resolve name)).value.IsSettled
        ((opened (r.resolve name) name : Element α).storeAll (ownProperties body)).1.type := by
      rw [type_storeAll]
      exact Registry.isSettled_ensure hr name
    rw [readPart]
    exact isClosed_node hknown htype hinner
  | .block name (some base) number body, r, hr => by
    have hknown := r.extendsBy_registerTemplate name (r.resolve base)
    have hinner := isClosed_readParts body (hknown.aliases.trans hr)
    rw [readPart]
    exact isClosed_template hknown rfl (Registry.isSettled_registerTemplate hr name base) rfl hinner

theorem isClosed_readParts : ∀ (os : List Outline) {r : Registry},
    r.aliases = Registry.packaged.aliases → (readParts (α := α) os r).IsClosed r
  | [], r, _ => by
    rw [readParts]
    exact isClosed_nil r
  | o :: os, r, hr => by
    have hfirst := isClosed_readPart o hr
    have hrest := isClosed_readParts os (hfirst.registry.aliases.trans hr)
    rw [readParts]
    exact isClosed_append hfirst hrest

end

/-! ### Documents -/

/-- A document with a registry that has all types of the document, and that has not lost anything of
the registry before. -/
structure Parsed.IsClosed (before : Registry) (p : Parsed α) : Prop where
  /-- The types of the widgets, those in bodies of templates too, are known and stand for
  themselves. -/
  types : ∀ e ∈ p.document.elements,
    p.registry.knows e.type = true ∧ p.registry.resolve e.type = e.type
  /-- The templates are types. -/
  templates : ∀ t ∈ p.document.templates, p.registry.knows t.name = true
  /-- What the bases were resolved to is known and stands for itself. -/
  bases : ∀ t ∈ p.document.templates, ∃ base, t.resolvedBase = some base
    ∧ p.registry.knows base = true ∧ p.registry.resolve base = base
  /-- The types from before come first, in their order. -/
  keys : before.definitions.keys <+: p.registry.definitions.keys
  /-- They have their definitions, unless a template has the name. -/
  kept : ∀ name definition, before.get? name = some definition →
    name ∉ p.document.templates.map Template.name → p.registry.get? name = some definition
  /-- A new definition is that of a template, or it is made up. -/
  added : ∀ name definition, p.registry.get? name = some definition → before.knows name = false →
    (name ∈ p.document.templates.map Template.name ∧ definition.name = name
        ∧ definition.madeUp = false)
      ∨ (name ∉ p.document.templates.map Template.name ∧ definition = Registry.makeUp name)

/-- **Closed registries**: whatever the text, reading it with the packaged types leaves a registry
that has the types of all its widgets and the bases of all its templates, all of them resolved to
themselves; the templates are types of it; the packaged types are still there; and what is new is
either a template or made up. -/
theorem isClosed_read (text : String) :
    (read (α := α) Registry.packaged text).value.IsClosed Registry.packaged := by
  have hread : Reading.IsClosed (α := α) Registry.packaged _ :=
    isClosed_readParts (outline (lines text)) rfl
  have hnames : (parsed (α := α) text).templates.map Template.name
      = (readParts (α := α) (outline (lines text)) Registry.packaged).templates.map
          Template.name :=
    map_finishTemplates (fun _ _ => rfl) _ _ _
  have hregistry := hread.registry
  rw [← hnames] at hregistry
  refine ⟨fun e he => ?_, fun t ht => ?_, fun u hu => ?_, hregistry.keys, hregistry.kept,
    fun name definition hd hnew => ?_⟩
  · have hsettled : (read (α := α) Registry.packaged text).value.registry.IsSettled e.type := by
      rcases List.mem_append.1 he with he | he
      · obtain ⟨b, hb, _, rfl⟩ := Tree.exists_of_mem_forestMapState he
        have htype := hread.widgets b hb
        rwa [← type_finishStep] at htype
      · obtain ⟨u, hu, he⟩ := List.mem_flatMap.1 he
        obtain ⟨t, ht, _, rfl⟩ := mem_finishTemplates hu
        obtain ⟨b, hb, _, rfl⟩ := Tree.exists_of_mem_forestMapState he
        have htype := hread.bodies t ht b hb
        rwa [← type_finishStep] at htype
    exact ⟨hsettled.knows, hsettled.resolve_eq⟩
  · exact hregistry.knows_template (List.mem_map_of_mem ht)
  · obtain ⟨t, ht, _, rfl⟩ := mem_finishTemplates hu
    obtain ⟨base, hbase, hsettled⟩ := hread.bases t ht
    exact ⟨base, hbase, hsettled.knows, hsettled.resolve_eq⟩
  · by_cases hname : name ∈ (parsed (α := α) text).templates.map Template.name
    · obtain ⟨own, hown, hself⟩ := hregistry.templates name hname
      have hsame : definition = own := Option.some.inj (hd.symm.trans hown)
      exact .inl ⟨hname, hsame ▸ hself⟩
    · exact .inr ⟨hname, hregistry.others name definition hd hnew hname⟩

end Document

end Otui
