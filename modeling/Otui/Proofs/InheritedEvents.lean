import Otui.Module.Script
import Otui.Proofs.NestedDocuments
import Otui.Proofs.Scripts
import Mathlib.Data.List.Nodup
import Mathlib.Logic.Relation

/-!
# Events of template instances

A template takes over the definition of its base as it is known at the opening of the template, and
with it the events. So along a chain of templates that are each declared before they are used as a
base, the events of the packaged type at the end of the chain come through to every template of the
chain (`Registry.Serves`), whatever types are made up on the way. A widget looks for its events
under the name of its template first; that is why an instance before the opening of its template has
them too: `events_reach_instances`.
-/

namespace Otui

open Otui.Text Otui.Document

variable {α : Type}

/-! ### Registries along openings -/

namespace Document

/-- What an opening says. -/
abbrev Opening := String × Option String

/-- The opening that a line says. -/
def Line.opening? (l : Line) : Option Opening :=
  match l.content with
  | .opening name base => some (name, base)
  | _ => none

/-- The openings among some lines, in order. -/
def openings (ls : List Line) : List Opening := ls.filterMap Line.opening?

end Document

/-- The registry after an opening: the type of a widget gets a definition if it has none, and a
template becomes a type. -/
def Registry.meet (r : Registry) : Opening → Registry
  | (name, none) => (r.ensure (r.resolve name)).value
  | (name, some base) => (r.registerTemplate name (r.resolve base)).value

/-- Reading meets the openings in the order of their lines. -/
theorem Document.registry_readParts (ls : List Line) (r : Registry) :
    (readParts (α := α) (outline ls) r).registry = (openings ls).foldl Registry.meet r := by
  fun_induction outline ls generalizing r with
  | case1 => rfl
  | case2 l rest name base hl ihbody ihrest =>
    have hsplit : openings rest = openings (rest.takeWhile (Line.isBelow l.level))
        ++ openings (rest.dropWhile (Line.isBelow l.level)) := by
      rw [openings, openings, openings, ← List.filterMap_append, List.takeWhile_append_dropWhile]
    have hcons : openings (l :: rest) = (name, base) :: openings rest := by
      simp [openings, Line.opening?, hl]
    rw [hcons, hsplit, List.foldl_cons, List.foldl_append, readParts, ihrest]
    refine congrArg (fun r => (openings _).foldl Registry.meet r) ?_
    cases base <;> exact ihbody _
  | case3 l rest key value raw hl ih =>
    have hcons : openings (l :: rest) = openings rest := by simp [openings, Line.opening?, hl]
    rw [hcons, ← ih, readParts, readPart]
  | case4 l rest hl ih =>
    have hcons : openings (l :: rest) = openings rest := by simp [openings, Line.opening?, hl]
    rw [hcons, ← ih]

/-! ### Chains of bases -/

/-- The templates that openings declare, each with its base, in order. -/
def Document.declared (os : List Opening) : List (String × String) :=
  os.filterMap fun o => o.2.map fun base => (o.1, base)

/-- Templates with their bases, in the order of their declarations, that form chains: no name stands
for something else, and each base that is a template is declared before. -/
structure AreChained (ds : List (String × String)) : Prop where
  /-- No name is declared twice. -/
  nodup : (ds.map Prod.fst).Nodup
  /-- No name has `UI` in front. -/
  bare : ∀ d ∈ ds, startsWith "UI" d.1 = false
  /-- No name is that of a packaged type. -/
  unpackaged : ∀ d ∈ ds, Registry.packaged.knows d.1 = false
  /-- No name is another name for a type. -/
  unaliased : ∀ d ∈ ds, Registry.packaged.aliases.get? d.1 = none
  /-- No template is its own base. -/
  notOwn : ∀ d ∈ ds, d.2 ≠ d.1
  /-- No base is declared after the template. -/
  ordered : ds.Pairwise fun d later => d.2 ≠ later.1

instance (ds : List (String × String)) : Decidable (AreChained ds) :=
  decidable_of_iff ((ds.map Prod.fst).Nodup ∧ (∀ d ∈ ds, startsWith "UI" d.1 = false)
      ∧ (∀ d ∈ ds, Registry.packaged.knows d.1 = false)
      ∧ (∀ d ∈ ds, Registry.packaged.aliases.get? d.1 = none) ∧ (∀ d ∈ ds, d.2 ≠ d.1)
      ∧ ds.Pairwise fun d later => d.2 ≠ later.1)
    ⟨fun h => ⟨h.1, h.2.1, h.2.2.1, h.2.2.2.1, h.2.2.2.2.1, h.2.2.2.2.2⟩,
      fun h => ⟨h.1, h.2, h.3, h.4, h.5, h.6⟩⟩

/-- The chain of bases that starts at a name ends at another: following the bases leads there, and
it is no template. -/
def EndsAt (ds : List (String × String)) (name last : String) : Prop :=
  Relation.ReflTransGen (fun name base => (name, base) ∈ ds) name last ∧ last ∉ ds.map Prod.fst

/-- The events of the packaged type that a name stands for; none if it stands for no such type. -/
def Registry.packagedEvents (name : String) : Ledger String :=
  ((packaged.get? (packaged.resolve name)).map Definition.events).getD {}

section chains

variable {ds : List (String × String)}

/-- With distinct names a name has one base. -/
theorem AreChained.base_unique (h : AreChained ds) {name base other : String}
    (hbase : (name, base) ∈ ds) (hother : (name, other) ∈ ds) : base = other := by
  have hp := List.inj_on_of_nodup_map h.nodup hbase hother rfl
  exact congrArg Prod.snd hp

/-- A chain has one end. -/
theorem EndsAt.unique (h : AreChained ds) {name last other : String} (hlast : EndsAt ds name last)
    (hother : EndsAt ds name other) : last = other := by
  have hfinal : ∀ {a b : String}, a ∉ ds.map Prod.fst →
      Relation.ReflTransGen (fun name base => (name, base) ∈ ds) a b → a = b := by
    intro a b ha hab
    rcases hab.cases_head with rfl | ⟨c, hac, -⟩
    · rfl
    · exact absurd (List.mem_map.2 ⟨_, hac, rfl⟩) ha
  have hunique : Relator.RightUnique fun name base => (name, base) ∈ ds :=
    fun _ _ _ hbase hother => h.base_unique hbase hother
  rcases Relation.ReflTransGen.total_of_right_unique hunique hlast.1 hother.1 with hto | hto
  · exact hfinal hlast.2 hto
  · exact (hfinal hother.2 hto).symm

theorem EndsAt.head {name base last : String} (hbase : (name, base) ∈ ds)
    (h : EndsAt ds base last) : EndsAt ds name last :=
  ⟨.head hbase h.1, h.2⟩

end chains

/-! ### What the registry knows on the way -/

namespace Registry

theorem isSome_get? (r : Registry) (name : String) : (r.get? name).isSome = r.knows name := by
  rw [Bool.eq_iff_iff, get?, Ledger.isSome_get?_iff, knows, Ledger.contains_iff]

theorem get?_eq_none {r : Registry} {name : String} (h : r.knows name = false) :
    r.get? name = none := by
  rw [← Option.not_isSome_iff_eq_none, isSome_get?, h]
  exact Bool.false_ne_true

/-- A type gets a definition if it has none, and nothing else changes. -/
theorem get?_ensure (r : Registry) (type name : String) :
    (r.ensure type).value.get? name
      = if type = name then some (r.definitionOf type) else r.get? name := by
  unfold ensure
  split
  · next hk =>
    obtain ⟨definition, hd⟩ := Option.isSome_iff_exists.1 ((r.isSome_get? type).trans hk)
    split
    · next htype =>
      subst htype
      rw [Noted.value_pure, definitionOf, hd, Option.getD_some]
    · rfl
  · next hk =>
    rw [get?, Ledger.get?_insert, definitionOf, get?_eq_none (by simpa using hk),
      Option.getD_none]
    rfl

/-- A definition that is there stays. -/
theorem get?_ensure_of_eq_some {r : Registry} {name : String} {definition : Definition}
    (h : r.get? name = some definition) (type : String) :
    (r.ensure type).value.get? name = some definition := by
  rw [get?_ensure]
  split
  · next htype => rw [htype, definitionOf, h, Option.getD_some]
  · exact h

/-- A template gets the definition of its base, and nothing else changes but the base. -/
theorem get?_registerTemplate (r : Registry) (name base other : String) :
    (r.registerTemplate name base).value.get? other
      = if name = other then some (templateDefinition (r.definitionOf base) name)
        else (r.ensure base).value.get? other := by
  have hbase : (r.ensure base).value.definitionOf base = r.definitionOf base := by
    rw [definitionOf, get?_ensure, if_pos rfl, Option.getD_some]
  rw [registerTemplate]
  simp only [Noted.value_bind, Noted.value_pure, get?, Ledger.get?_insert, hbase]

/-- A registry that has met the openings of some of all templates: those have the events of the
packaged types at the ends of their chains. -/
structure Serves (all met : List (String × String)) (r : Registry) : Prop where
  /-- The packaged types and these templates are known, and types that were made up. -/
  knows : r.Knows (met.map Prod.fst)
  /-- The packaged types are as they were. -/
  packaged : ∀ name definition, packaged.get? name = some definition →
    r.get? name = some definition
  /-- The templates have the events of the ends of their chains. -/
  template : ∀ d ∈ met, ∃ last definition, EndsAt all d.1 last ∧ r.get? d.1 = some definition
    ∧ definition.madeUp = false ∧ definition.events = packagedEvents last
  /-- No other type has events. -/
  other : ∀ name, Registry.packaged.get? name = none → name ∉ met.map Prod.fst →
    ∀ definition, r.get? name = some definition → definition.events = {}

theorem serves_packaged (all : List (String × String)) : Serves all [] packaged where
  knows := knows_packaged
  packaged _ _ h := h
  template _ hd := by cases hd
  other name hname _ definition hd := by
    rw [hname] at hd
    cases hd

namespace Serves

variable {all met after : List (String × String)} {r : Registry} {name base : String}

/-- A type that is no template has the events of the package. -/
theorem events_definitionOf (h : r.Serves all met) {type : String}
    (htype : type ∉ met.map Prod.fst) :
    (r.definitionOf type).events
      = ((Registry.packaged.get? type).map Definition.events).getD {} := by
  rw [definitionOf]
  cases hp : Registry.packaged.get? type with
  | some definition => rw [h.packaged type definition hp]; rfl
  | none =>
    cases hr : r.get? type with
    | some definition => exact h.other type hp htype definition hr
    | none => rfl

/-- A name that is no template stands for what it stands for in the package. -/
theorem resolve_eq (h : r.Serves all met) (hname : name ∉ met.map Prod.fst) :
    r.resolve name = Registry.packaged.resolve name := by
  have hcontains : (met.map Prod.fst).contains name = false := by simpa using hname
  rw [h.knows.resolve_eq, knows_packaged.resolve_eq, typeAmong, typeAmong, hcontains,
    List.contains_nil]

/-- No template has the name of a type that a name stands for in the package. -/
theorem resolve_not_mem (hall : AreChained all) (hmet : ∀ d ∈ met, d ∈ all) (name : String) :
    Registry.packaged.resolve name ∉ met.map Prod.fst := by
  intro hmem
  obtain ⟨d, hd, htype⟩ := List.mem_map.1 hmem
  have hcases := knows_packaged.resolve_cases name
  rw [← htype, hall.unpackaged d (hmet d hd), hall.bare d (hmet d hd)] at hcases
  simp at hcases

/-- Meeting the opening of a widget changes nothing that matters. -/
theorem ensure (h : r.Serves all met) (name : String) :
    (r.ensure (r.resolve name)).value.Serves all met where
  knows := h.knows.ensure name
  packaged other definition hp := get?_ensure_of_eq_some (h.packaged other definition hp) _
  template d hd := by
    obtain ⟨last, definition, hlast, hget, hrest⟩ := h.template d hd
    exact ⟨last, definition, hlast, get?_ensure_of_eq_some hget _, hrest⟩
  other other hp hmet definition hget := by
    rw [get?_ensure] at hget
    split at hget
    · next htype =>
      cases hget
      rw [htype, h.events_definitionOf hmet, hp]
      rfl
    · exact h.other other hp hmet definition hget

/-- The base of the next template has the events of the end of its chain. -/
theorem events_base (h : r.Serves all met) (hall : AreChained all)
    (heq : all = met ++ (name, base) :: after) :
    ∃ last, EndsAt all name last
      ∧ (r.definitionOf (r.resolve base)).events = packagedEvents last := by
  have hself : (name, base) ∈ all := heq ▸ by simp
  by_cases hbase : base ∈ met.map Prod.fst
  · -- The base is a template before this one: the chain of the template goes on as its chain.
    obtain ⟨d, hd, hfst⟩ := List.mem_map.1 hbase
    obtain ⟨last, definition, hlast, hget, -, hevents⟩ := h.template d hd
    have halias := hall.unaliased d (heq ▸ List.mem_append_left _ hd)
    rw [hfst] at hlast hget halias
    have hcontains : (met.map Prod.fst).contains base = true := by simpa using hbase
    have hresolve : r.resolve base = base := by
      rw [h.knows.resolve_eq, typeAmong, halias, hcontains]
      simp
    exact ⟨last, hlast.head hself, by rw [hresolve, definitionOf, hget]; exact hevents⟩
  · -- The base is no template before this one, so it is none at all and ends the chain.
    have hnone : base ∉ all.map Prod.fst := by
      have hlater := (List.pairwise_append.1 (heq ▸ hall.ordered)).2.1
      rw [List.pairwise_cons] at hlater
      have hown := hall.notOwn _ hself
      rw [heq, List.map_append, List.map_cons, List.mem_append, List.mem_cons]
      rintro (hmem | hmem | hmem)
      · exact hbase hmem
      · exact hown hmem
      · obtain ⟨later, hl, hfst⟩ := List.mem_map.1 hmem
        exact hlater.1 later hl hfst.symm
    refine ⟨base, ⟨.single hself, hnone⟩, ?_⟩
    rw [h.resolve_eq hbase, h.events_definitionOf
      (resolve_not_mem hall (fun d hd => heq ▸ List.mem_append_left _ hd) base)]
    rfl

/-- Meeting the opening of a template adds the template. -/
theorem registerTemplate (h : r.Serves all met) (hall : AreChained all)
    (heq : all = met ++ (name, base) :: after) :
    (r.registerTemplate name (r.resolve base)).value.Serves all (met ++ [(name, base)]) := by
  have hself : (name, base) ∈ all := heq ▸ by simp
  have hbase := h.ensure base
  refine ⟨?_, fun other definition hp => ?_, fun d hd => ?_,
    fun other hp hmet definition hget => ?_⟩
  · rw [List.map_append]
    exact h.knows.registerTemplate name base
  · have hne : name ≠ other := by
      rintro rfl
      rw [get?_eq_none (hall.unpackaged _ hself)] at hp
      cases hp
    rw [get?_registerTemplate, if_neg hne]
    exact hbase.packaged other definition hp
  · rcases List.mem_append.1 hd with hd | hd
    · obtain ⟨last, definition, hlast, hget, hrest⟩ := hbase.template d hd
      have hnodup := hall.nodup
      rw [heq, List.map_append, List.map_cons] at hnodup
      have hne : name ≠ d.1 := fun he => (List.nodup_append.1 hnodup).2.2 d.1
        (List.mem_map.2 ⟨d, hd, rfl⟩) name List.mem_cons_self he.symm
      exact ⟨last, definition, hlast, by rw [get?_registerTemplate, if_neg hne]; exact hget, hrest⟩
    · rw [List.mem_singleton] at hd
      subst hd
      obtain ⟨last, hlast, hevents⟩ := h.events_base hall heq
      exact ⟨last, templateDefinition (r.definitionOf (r.resolve base)) name, hlast,
        by rw [get?_registerTemplate, if_pos rfl], rfl, hevents⟩
  · rw [List.map_append, List.mem_append, not_or] at hmet
    have hne : name ≠ other := fun he => hmet.2 (by simp [he])
    rw [get?_registerTemplate, if_neg hne] at hget
    exact hbase.other other hp hmet.1 definition hget

/-- Meeting openings adds the templates that they declare. -/
theorem foldl_meet (h : r.Serves all met) (hall : AreChained all) {os : List Opening}
    (heq : all = met ++ declared os ++ after) :
    (os.foldl Registry.meet r).Serves all (met ++ declared os) := by
  induction os generalizing met r with
  | nil => simpa [declared] using h
  | cons o os ih =>
    obtain ⟨name, base⟩ := o
    cases base with
    | none => exact ih (h.ensure name) heq
    | some base =>
      have hcons : declared ((name, some base) :: os) = (name, base) :: declared os := rfl
      rw [hcons] at heq ⊢
      have hsplit : all = met ++ (name, base) :: (declared os ++ after) := by simpa using heq
      have hstep := h.registerTemplate hall hsplit
      simpa [meet] using ih hstep (by simpa using heq)

end Serves

/-- After a text with chained templates is read, all templates have the events of the ends of their
chains. -/
theorem serves_read {text : String} (h : AreChained (declared (openings (Document.lines text)))) :
    (read (α := α) packaged text).value.registry.Serves
      (declared (openings (Document.lines text))) (declared (openings (Document.lines text))) := by
  have hread : (read (α := α) packaged text).value.registry
      = (openings (Document.lines text)).foldl meet packaged := registry_readParts _ _
  have hall : declared (openings (Document.lines text))
      = [] ++ declared (openings (Document.lines text)) ++ [] := by simp
  rw [hread]
  exact (serves_packaged _).foldl_meet h hall

end Registry

/-! ### Instances -/

namespace Document

/-- Only the openings of templates declare any. -/
theorem declared_openings_filter (ls : List Line) :
    declared (openings (ls.filter Line.isTemplate)) = declared (openings ls) := by
  rw [declared, declared, openings, openings, List.filterMap_filterMap, List.filterMap_filterMap,
    List.filterMap_filter]
  refine List.filterMap_congr fun l _ => ?_
  cases hc : l.content with
  | opening name base => cases base <;> simp [Line.isTemplate, Line.opening?, hc]
  | property key value raw => simp [Line.opening?, hc]
  | other => simp [Line.opening?, hc]

/-- Templates have the names and the bases that their openings declare. -/
theorem declared_of_isOpenedBy {ls : List Line} {us : List (Tree Line)} {ts : List (Template α)}
    (h : List.Forall₂ (Template.IsOpenedBy ls) us ts) :
    declared (openings (us.map Tree.label)) = ts.map fun t => (t.name, t.base) := by
  induction h with
  | nil => rfl
  | cons ht _ ih =>
    rw [List.map_cons, List.map_cons, ← ih]
    simp [openings, declared, Line.opening?, ht.opening]

/-- The templates that a text declares are those of its document, in order. -/
theorem declared_eq_map_templates (text : String) :
    declared (openings (lines text))
      = (parsed (α := α) text).templates.map fun t => (t.name, t.base) := by
  have hnumbered := areNumbered_lines text
  obtain ⟨-, htemplates⟩ :=
    isOpenedBy_readParts (α := α) (nest_eq_linesOf hnumbered).2 Registry.packaged
  rw [← declared_openings_filter, ← (isNesting_nest hnumbered).openings]
  exact declared_of_isOpenedBy (isOpenedBy_finishTemplates htemplates _ _)

/-- A widget whose type is the name of a template is an instance of it. -/
theorem name_template_of_surface {text name : String} {e : Element α}
    (he : e ∈ (parsed text).elements) (hsurface : e.surface = some name)
    (hname : name ∈ (declared (openings (lines text))).map Prod.fst) :
    e.template.map TemplateRef.name = some name := by
  rw [declared_eq_map_templates (α := α), List.map_map] at hname
  obtain ⟨t, ht, rfl⟩ := List.mem_map.1 hname
  have hfound : (Template.find? (parsed text).templates t.name).isSome = true :=
    List.find?_isSome.2 ⟨t, ht, by simp⟩
  obtain ⟨u, hu⟩ := Option.isSome_iff_exists.1 hfound
  have hu' : u.name = t.name := by simpa using List.find?_some hu
  rw [((isRead_parsed text).isFinished e he).template, hsurface]
  simp [refAmong, textOrEmpty, hu, hu']

end Document

/-- The events of a template that is known are those of its instances. -/
theorem Script.eventsOf_eq {registry : Registry} {e : Element α} {name : String}
    {definition : Definition} (hname : e.template.map TemplateRef.name = some name)
    (hne : name ≠ "") (hget : registry.get? name = some definition)
    (hmadeUp : definition.madeUp = false) :
    eventsOf registry e = definition.events := by
  simp [eventsOf, hname, textOrEmpty, eventsOfType?, hne, hget, hmadeUp]

/-- **Events of instances**: in a text with chained templates, a widget whose type is the name of a
template has the events of the packaged type at the end of the chain of the template, wherever it
stands; it has none if no packaged type is there. -/
theorem events_reach_instances (text : String)
    (h : AreChained (declared (openings (Document.lines text)))) {e : Element α}
    (he : e ∈ (parsed text).elements) {name : String} (hsurface : e.surface = some name)
    (hname : name ∈ (declared (openings (Document.lines text))).map Prod.fst) :
    (∃ last, EndsAt (declared (openings (Document.lines text))) name last)
      ∧ ∀ last, EndsAt (declared (openings (Document.lines text))) name last →
        Script.eventsOf (read (α := α) Registry.packaged text).value.registry e
          = Registry.packagedEvents last := by
  obtain ⟨d, hd, rfl⟩ := List.mem_map.1 hname
  obtain ⟨last, definition, hlast, hget, hmadeUp, hevents⟩ :=
    (Registry.serves_read (α := α) h).template d hd
  refine ⟨⟨last, hlast⟩, fun other hother => ?_⟩
  obtain ⟨_, hread⟩ := ((isRead_parsed text).isFinished e he).read
  obtain ⟨written, hwritten, hsound⟩ := hread.surface
  have hne : d.1 ≠ "" := by
    cases hsurface.symm.trans hwritten
    exact IsWidgetName.ne_empty hsound
  rw [EndsAt.unique h hother hlast, ← hevents]
  exact Script.eventsOf_eq (name_template_of_surface he hsurface hname) hne hget hmadeUp

/-- A text with an instance before the openings of two templates, of which one is the base of the
other. -/
def instanceFirst : String := "Ok\nBase < Button\nOk < Base\n"

/-- The instance before the openings has the events of buttons. -/
theorem events_reach_instances_button :
    AreChained (declared (openings (Document.lines instanceFirst)))
      ∧ ∃ e ∈ (parsed instanceFirst : Document Float).elements, e.surface = some "Ok"
        ∧ (Script.eventsOf (read (α := Float) Registry.packaged instanceFirst).value.registry
            e).entries = [("onClick", "function()")] := by
  have hchained : AreChained (declared (openings (Document.lines instanceFirst))) := by
    decide +kernel
  have hmem : "Ok" ∈ (declared (openings (Document.lines instanceFirst))).map Prod.fst := by
    decide +kernel
  have hends : EndsAt (declared (openings (Document.lines instanceFirst))) "Ok" "Button" :=
    ⟨.head (b := "Base") (by decide +kernel) (.single (by decide +kernel)), by decide +kernel⟩
  have hevents : (Registry.packagedEvents "Button").entries = [("onClick", "function()")] := by
    decide +kernel
  have hinstance : ∃ e ∈ (parsed instanceFirst : Document Float).elements,
      e.surface = some "Ok" := by
    decide +kernel
  obtain ⟨e, he, hsurface⟩ := hinstance
  have h := events_reach_instances instanceFirst hchained he hsurface hmem
  exact ⟨hchained, e, he, hsurface, by rw [h.2 "Button" hends, hevents]⟩

end Otui
