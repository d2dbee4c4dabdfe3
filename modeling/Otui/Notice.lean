import Otui.Text.Quoted

/-!
# Notices

Nothing in a document, a style sheet or a directory of images is bad enough to stop the work, as
long as it can be read: what is strange is passed over and reported. A `Notice` is one such report,
told by its cause. `Noted` is a result together with the notices that came up on the way, in order.
-/

namespace Otui

/-- How much a notice matters. -/
inductive NoticeLevel where
  /-- Only of use when looking for a mistake. -/
  | debug
  /-- Something was passed over. -/
  | warning
  deriving DecidableEq

/-- A report of something that was passed over or made up. -/
inductive Notice where
  /-- A type that the registry does not know got a definition. -/
  | madeUpType (name : String)
  /-- A margin of a property line is no number. -/
  | strangeMargin (line : Nat) (key value : String)
  /-- A file was read as a document. -/
  | readDocument (path : String) (widgets templates : Nat)
  /-- An instance of a template stands inside the same template. -/
  | selfContaining (template : String)
  /-- A widget hooks itself, over siblings or directly. -/
  | anchoredToItself (widget : String)
  /-- A widget anchors an edge that there is not. -/
  | strangeOwnEdge (edge widget : String)
  /-- A widget hooks something that there is not. -/
  | unknownHook (hook widget : String)
  /-- The value of an anchor is not a hook and an edge. -/
  | strangeAnchor (value widget : String)
  /-- A widget hooks an edge that there is not. -/
  | strangeHookedEdge (edge widget : String)
  /-- A widget cannot be written. -/
  | unwritable (widget : String)
  /-- The parents of a style come back to it. -/
  | styleCycle (name : String)
  /-- A style sheet was read. -/
  | readSheet (count : Nat) (path : String)
  /-- A path to search for style sheets does not exist. -/
  | noStylePath (path : String)
  /-- A path to search for images is not a directory. -/
  | noImagePath (path : String)
  /-- The directories of images were searched. -/
  | indexedImages (count : Nat)
  /-- A color cannot be read. -/
  | strangeColor (text : String)
  /-- An image was found and cannot be read. -/
  | brokenImage (source reason : String)
  /-- An image was not found. -/
  | noImage (source : String)
  deriving DecidableEq

namespace Notice

/-- How much a notice matters. -/
def level : Notice → NoticeLevel
  | madeUpType .. | strangeMargin .. | readDocument .. | styleCycle .. | readSheet ..
  | indexedImages .. | strangeColor .. | noImage .. => .debug
  | _ => .warning

/-- The part of the program that speaks, as log lines name it. -/
def channel : Notice → String
  | madeUpType .. => "otuigen.core.registry"
  | strangeMargin .. => "otuigen.parser.document"
  | readDocument .. => "otuigen.main"
  | selfContaining .. => "otuigen.core.templates"
  | anchoredToItself .. | strangeOwnEdge .. | unknownHook .. | strangeAnchor ..
  | strangeHookedEdge .. => "otuigen.layout.engine"
  | unwritable .. => "otuigen.codegen.otui"
  | styleCycle .. | readSheet .. | noStylePath .. => "otuigen.styles.loader"
  | noImagePath .. | indexedImages .. => "otuigen.styles.images"
  | strangeColor .. | brokenImage .. | noImage .. => "otuigen.preview.renderer"

/-- The text of a notice. -/
def message : Notice → String
  | madeUpType name => s!"Synthesized widget definition for unknown type {name}"
  | strangeMargin line key value => s!"Line {line}: ignoring non-numeric margin {key}: {value}"
  | readDocument path widgets templates =>
    s!"Parsed {path}: {widgets} widgets, {templates} templates"
  | selfContaining template =>
    s!"Template {template} contains an instance of itself, not expanding"
  | anchoredToItself widget => s!"Widget {widget} is recursively anchored to itself"
  | strangeOwnEdge edge widget => s!"Invalid anchored edge '{edge}' on {widget}"
  | unknownHook hook widget => s!"Unknown anchor hook '{hook}' on {widget}"
  | strangeAnchor value widget => s!"Invalid anchor '{value}' on {widget}"
  | strangeHookedEdge edge widget => s!"Invalid hooked edge '{edge}' on {widget}"
  | unwritable widget => s!"Skipping widget without type or id: {widget}"
  | styleCycle name => s!"Inheritance cycle through style {name}"
  | readSheet count path => s!"Loaded {count} styles from {path}"
  | noStylePath path => s!"Style path does not exist: {path}"
  | noImagePath path => s!"Image path does not exist: {path}"
  | indexedImages count => s!"Indexed {count} images"
  | strangeColor text => s!"Ignoring invalid color {Text.quoted text}"
  | brokenImage source reason => s!"Cannot read image {source}: {reason}"
  | noImage source => s!"Image {source} not found"

/-- The line that a log shows for a notice. -/
def logLine (n : Notice) : String :=
  let level := match n.level with
    | .debug => "DEBUG"
    | .warning => "WARNING"
  s!"{level} {n.channel}: {n.message}"

end Notice

/-! ### Results with notices -/

/-- A result and the notices that came up on the way to it, in order. -/
structure Noted (α : Type) where
  /-- The result. -/
  value : α
  /-- The notices, first one first. -/
  notices : List Notice := []

namespace Noted

variable {α β : Type}

/-- A step after another: the notices of both, in order. -/
def andThen (x : Noted α) (f : α → Noted β) : Noted β :=
  let y := f x.value
  ⟨y.value, x.notices ++ y.notices⟩

instance : Monad Noted where
  pure a := ⟨a, []⟩
  bind := andThen

/-- One notice. -/
def say (n : Notice) : Noted Unit := ⟨(), [n]⟩

/-- The messages of the warnings among the notices. -/
def warnings (x : Noted α) : List String :=
  (x.notices.filter (·.level == .warning)).map Notice.message

@[simp] theorem value_pure (a : α) : (pure a : Noted α).value = a := rfl

@[simp] theorem notices_pure (a : α) : (pure a : Noted α).notices = [] := rfl

@[simp] theorem value_bind (x : Noted α) (f : α → Noted β) :
    (x >>= f).value = (f x.value).value := rfl

@[simp] theorem notices_bind (x : Noted α) (f : α → Noted β) :
    (x >>= f).notices = x.notices ++ (f x.value).notices := rfl

@[simp] theorem value_map (f : α → β) (x : Noted α) : (f <$> x).value = f x.value := rfl

@[simp] theorem notices_map (f : α → β) (x : Noted α) : (f <$> x).notices = x.notices :=
  List.append_nil _

@[simp] theorem notices_say (n : Notice) : (say n).notices = [n] := rfl

theorem map_id (x : Noted α) : id <$> x = x := by
  change (⟨x.value, x.notices ++ []⟩ : Noted α) = x
  rw [List.append_nil]

theorem bind_assoc {γ : Type} (x : Noted α) (f : α → Noted β) (g : β → Noted γ) :
    (x >>= f) >>= g = x >>= fun a => f a >>= g := by
  change (⟨(g (f x.value).value).value, _ ++ _ ++ _⟩ : Noted γ)
    = ⟨(g (f x.value).value).value, _ ++ (_ ++ _)⟩
  rw [List.append_assoc]
  rfl

instance : LawfulMonad Noted := .mk' Noted map_id (fun _ _ => rfl) bind_assoc

end Noted

end Otui
