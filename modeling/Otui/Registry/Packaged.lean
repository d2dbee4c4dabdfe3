import Otui.Registry

/-!
# The packaged registry

The types that the client knows, by category, with the other names for them and the style names to
try for them.
-/

namespace Otui.Registry

/-- A definition of the package. -/
def packagedType (name category : String) (isContainer : Bool) (props : List (String × Data))
    (events : List (String × String)) : Definition :=
  { name, category := .text category, isContainer, props := .ofList props, events := .ofList events }

/-- Types that arrange other widgets. -/
def layoutTypes : List Definition := [
  packagedType "UIWindow" "Layout" true
    [("title", .text "My Window"), ("draggable", .bool true), ("closable", .bool true)]
    [("onClose", "function()")],
  packagedType "CleanStaticMainWindow" "Layout" true
    [("title", .text "Main Window")]
    [("onClose", "function()")],
  packagedType "UIMiniWindow" "Layout" true [] [("onClose", "function()")],
  packagedType "UIPanel" "Layout" true [] [],
  packagedType "UIWidget" "Layout" true [] [],
  packagedType "UIHorizontalSeparator" "Layout" false [("color", .text "#666")] [],
  packagedType "UIVerticalSeparator" "Layout" false [("color", .text "#666")] [],
  packagedType "UIScrollArea" "Layout" true
    [("verticalScrollBar", .bool true), ("horizontalScrollBar", .bool false)]
    [],
  packagedType "UITabBar" "Layout" true [] [("onTabChange", "function(tab)")],
  packagedType "UITab" "Layout" true [("text", .text "Tab")] [],
  packagedType "UIVerticalLayout" "Layout" true [("spacing", .int 0)] [],
  packagedType "UIHorizontalLayout" "Layout" true [("spacing", .int 0)] [],
  packagedType "UIGridLayout" "Layout" true [("cellWidth", .int 32), ("cellHeight", .int 32)] [],
  packagedType "UIButtonBox" "Layout" true [] []]

/-- Types that the user works with. -/
def controlTypes : List Definition := [
  packagedType "UIButton" "Controls" false [("text", .text "Click")] [("onClick", "function()")],
  packagedType "UICheckBox" "Controls" false
    [("text", .text "Option"), ("checked", .bool false)]
    [("onCheckChange", "function(widget, checked)")],
  packagedType "UIRadioButton" "Controls" false
    [("text", .text "Option"), ("checked", .bool false), ("group", .text "group1")]
    [("onCheckChange", "function(widget, checked)")],
  packagedType "UITextEdit" "Controls" false
    [("placeholder", .text "Enter text..."), ("text", .text "")]
    [("onTextChange", "function(widget, text)")],
  packagedType "UIProgressBar" "Controls" false [("percent", .int 75)] [],
  packagedType "UISlider" "Controls" false
    [("value", .int 50), ("minimum", .int 0), ("maximum", .int 100)]
    [("onValueChange", "function(widget, value)")],
  packagedType "UIComboBox" "Controls" false
    [("text", .text "Select..."), ("currentIndex", .int 0)]
    [("onOptionChange", "function(widget, option)")],
  packagedType "UIList" "Controls" false [] [("onSelectionChange", "function(widget, item)")],
  packagedType "UITextList" "Controls" false [] [("onSelectionChange", "function(widget, item)")],
  packagedType "UIScrollBar" "Controls" false
    [("value", .int 0), ("maximum", .int 100), ("step", .int 1)]
    [("onValueChange", "function(widget, value)")],
  packagedType "UISpinBox" "Controls" false
    [("value", .int 0), ("minimum", .int 0), ("maximum", .int 100), ("step", .int 1)]
    [("onValueChange", "function(widget, value)")]]

/-- Types that show something. -/
def displayTypes : List Definition := [
  packagedType "UILabel" "Display" false [("text", .text "")] [],
  packagedType "UIImage" "Display" false [("source", .text "/images/icon.png")] [],
  packagedType "UISprite" "Display" false
    [("spriteId", .int 1), ("width", .int 32), ("height", .int 32)]
    [],
  packagedType "UIMap" "Display" false
    [("zoom", .int 1), ("floor", .int 7)]
    [("onMousePress", "function(widget, pos)")],
  packagedType "UIMinimap" "Display" false [("zoom", .int 1), ("floor", .int 7)] [],
  packagedType "UICreature" "Display" false [("outfit", .text ""), ("direction", .int 3)] []]

/-- Types that show a part of the game. -/
def gameTypes : List Definition := [
  packagedType "UIItem" "Game UI" false
    [("itemId", .int 3031), ("count", .int 1)]
    [("onItemClick", "function(widget, item)")],
  packagedType "UIHealthBar" "Game UI" false [("percent", .int 100), ("color", .text "red")] [],
  packagedType "UIManaBar" "Game UI" false [("percent", .int 100), ("color", .text "blue")] [],
  packagedType "UIExperienceBar" "Game UI" false
    [("percent", .int 0), ("color", .text "green")]
    [],
  packagedType "UIOutfit" "Game UI" false [("outfit", .text ""), ("direction", .int 3)] [],
  packagedType "UICreatureBox" "Game UI" false [("creatureId", .int 0)] [],
  packagedType "UISkillBar" "Game UI" false
    [("skill", .text "fist"), ("level", .int 1), ("percent", .int 0)]
    [],
  packagedType "UIInventory" "Game UI" true [] [("onItemClick", "function(widget, item)")],
  packagedType "UIContainer" "Game UI" true
    [("containerId", .int 0)]
    [("onItemClick", "function(widget, item)")],
  packagedType "UISeparator" "Game UI" false
    [("color", .text "#666"), ("marginTop", .int 5), ("marginBottom", .int 5)]
    []]

/-- Names in documents that do not follow the rule of the `UI` in front. -/
def packagedAliases : List (String × String) := [
  ("VerticalScrollBar", "UIScrollBar"), ("HorizontalScrollBar", "UIScrollBar"),
  ("ScrollBar", "UIScrollBar"), ("MainWindow", "UIWindow"), ("GameLabel", "UILabel"),
  ("FlatPanel", "UIPanel"), ("ButtonBox", "UIButtonBox"), ("TextList", "UITextList"),
  ("ComboBox", "UIComboBox"), ("HorizontalSeparator", "UIHorizontalSeparator"),
  ("VerticalSeparator", "UIVerticalSeparator"), ("ScrollablePanel", "UIScrollArea")]

/-- Style names by type, best first. -/
def packagedStyleNames : List (String × List String) := [
  ("UIWindow", ["Window"]), ("UILabel", ["Label", "GameLabel"]),
  ("UIPanel", ["Panel", "FlatPanel"]), ("UIWidget", ["Panel"]),
  ("UIScrollArea", ["ScrollablePanel", "Panel"]),
  ("UIScrollBar", ["VerticalScrollBar", "HorizontalScrollBar"]),
  ("UIMiniWindow", ["MiniWindow"]), ("UIButton", ["Button"]), ("UITextEdit", ["TextEdit"]),
  ("UICheckBox", ["CheckBox"]), ("UIRadioButton", ["RadioButton"]),
  ("UIProgressBar", ["ProgressBar"]), ("UIItem", ["Item"]), ("UIImage", ["Image"]),
  ("UISprite", ["Sprite"])]

/-- The registry that is used when none is given. -/
def packaged : Registry where
  definitions := .ofList
    ((layoutTypes ++ controlTypes ++ displayTypes ++ gameTypes).map fun d => (d.name, d))
  aliases := .ofList packagedAliases
  styleNames := .ofList packagedStyleNames

end Otui.Registry
