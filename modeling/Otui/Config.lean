import Otui.Data
import Otui.Files.Path
import Otui.Number.Scalar

/-!
# Configuration

What placing, writing and the command line can be told: how close to a centre counts as centred, the
size of a root widget that says none, the name and the title of the module, and where registries,
styles and images are. The name and the title are kept as given.
-/

namespace Otui

/-- The settings. -/
structure Config (α : Type) where
  /-- The distance between centres below which a widget counts as centred. -/
  threshold : α
  /-- The width of a root widget that says none. -/
  defaultWidth : Int := 400
  /-- The height of a root widget that says none. -/
  defaultHeight : Int := 300
  /-- The name of the module. -/
  moduleName : Data := .text "main"
  /-- The title of the module. -/
  moduleTitle : Data := .text "My Module"
  /-- The registry file that replaces the packaged one. -/
  registryPath : Option Path := none
  /-- Where style sheets are. -/
  stylePaths : List Path := []
  /-- Where images are. -/
  imagePaths : List Path := []

namespace Config

/-- The settings when none are given: a widget within ten pixels of a centre counts as centred. -/
def standard {α : Type} [Scalar α] : Config α :=
  { threshold := Scalar.ofNumeral (.decimal false 10 0) }

instance {α : Type} [Scalar α] : Inhabited (Config α) := ⟨standard⟩

end Config

end Otui
