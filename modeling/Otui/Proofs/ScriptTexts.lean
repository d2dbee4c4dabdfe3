import Otui.Proofs.LegalScripts

/-!
# What the text of a script does

The script of a module is read as text here. A name that stands in a line right behind some text is
what can be read of a variable (`nameAfter?`), and from it `deed?` tells what a line does to a
variable: it declares it, gives it a value, or connects or disconnects the widget in it. No id, no
type, event or title can be taken for something else, as long as it stands on one line: each line of
a script does in its text what it means (`deed?_text`), and the text is cut into its lines again
(`textLines_join`).
-/

namespace Otui

open Otui.Text Otui.Document

namespace Script

variable {α : Type}

/-! ### Reading lines -/

/-- A name that stands right behind a text, with what follows the name. -/
def nameAfter? : List Char → List Char → Option (List Char × List Char)
  | [], cs =>
    if cs.takeWhile isVariableChar = [] then none
    else some (cs.takeWhile isVariableChar, cs.dropWhile isVariableChar)
  | _ :: _, [] => none
  | f :: front, c :: cs => if f = c then nameAfter? front cs else none

/-- What a line does to a variable. -/
inductive Deed where
  /-- Declares it without a value. -/
  | declares (var : String)
  /-- Gives it the value of an expression. -/
  | assigns (var value : String)
  /-- Starts to connect handlers to the widget in it. -/
  | connects (var : String)
  /-- Disconnects all handlers from the widget in it. -/
  | disconnects (var : String)
  deriving DecidableEq

/-- The name that stands between two texts, if nothing else is there. -/
def nameBetween? (front back : String) (cs : List Char) : Option String :=
  match nameAfter? front.toList cs with
  | some (name, rest) => if rest = back.toList then some (String.ofList name) else none
  | none => none

/-- The variable that is given a value in a function, with the expression. -/
def assignment? (cs : List Char) : Option (String × String) :=
  match nameAfter? "  ".toList cs with
  | some (name, ' ' :: '=' :: ' ' :: value) => some (String.ofList name, String.ofList value)
  | _ => none

/-- What a line of text does to a variable. -/
def deed? (line : String) : Option Deed :=
  let cs := line.toList
  ((nameBetween? "local " " = nil" cs).map .declares).or <|
  ((nameBetween? "    connect(" ", \x7b" cs).map .connects).or <|
  ((nameBetween? "    disconnect(" ")" cs).map .disconnects).or <|
  (assignment? cs).map fun (var, value) => .assigns var value

section nameAfter

variable {front cs : List Char} {c f : Char} {v : String}

theorem nameAfter?_append (same front cs : List Char) :
    nameAfter? (same ++ front) (same ++ cs) = nameAfter? front cs := by
  induction same with
  | nil => rfl
  | cons a same ih => exact (if_pos rfl).trans ih

/-- A name is read up to the first character that cannot stand in one. -/
theorem nameAfter?_name (hv : IsName v) (hc : isVariableChar c = false) (front cs : List Char) :
    nameAfter? front (front ++ (v.toList ++ c :: cs)) = some (v.toList, c :: cs) := by
  have hne : v.toList ≠ [] := mt String.toList_eq_nil_iff.1 hv.ne_empty
  have hfront := nameAfter?_append front [] (v.toList ++ c :: cs)
  rw [List.append_nil] at hfront
  rw [hfront, nameAfter?, List.takeWhile_append_of_pos hv.chars,
    List.dropWhile_append_of_pos hv.chars, List.takeWhile_cons_of_neg (by simp [hc]),
    List.dropWhile_cons_of_neg (by simp [hc]), List.append_nil, if_neg hne]

/-- Whether a text begins in such a way that no name can stand in it behind another text: it differs
from that text, or goes on with what is no part of a name. -/
def excludesName : List Char → List Char → Bool
  | [], c :: _ => !isVariableChar c
  | f :: front, c :: cs => f != c || excludesName front cs
  | _, [] => false

theorem nameAfter?_of_excludesName (h : excludesName front cs = true) (rest : List Char) :
    nameAfter? front (cs ++ rest) = none := by
  fun_induction excludesName front cs with
  | case1 c cs =>
    have hc : isVariableChar c = false := by simpa using h
    exact if_pos (List.takeWhile_cons_of_neg (by simp [hc]))
  | case2 f front c cs ih =>
    rw [List.cons_append, nameAfter?]
    split
    · next hfc => exact ih (by simpa [hfc] using h)
    · rfl
  | case3 => cases h

/-- Of two words that are followed by different characters none is read where the other stands. -/
theorem nameAfter?_of_word {word : List Char} (hword : ∀ a ∈ word, isVariableChar a = true)
    (hf : isVariableChar f = false) {cs : List Char} (hcs : ∀ a ∈ cs, isVariableChar a = true)
    (hc : isVariableChar c = false) (hne : f ≠ c) (front rest : List Char) :
    nameAfter? (word ++ f :: front) (cs ++ c :: rest) = none := by
  induction word generalizing cs with
  | nil =>
    cases cs with
    | nil => exact if_neg hne
    | cons a cs =>
      refine if_neg fun hfa => ?_
      rw [hfa, hcs a List.mem_cons_self] at hf
      cases hf
  | cons w word ih =>
    obtain ⟨hw, hword⟩ := List.forall_mem_cons.1 hword
    cases cs with
    | nil =>
      refine if_neg fun hwc => ?_
      rw [← hwc, hw] at hc
      cases hc
    | cons a cs =>
      rw [List.cons_append, List.cons_append, nameAfter?]
      split
      · exact ih hword (List.forall_mem_cons.1 hcs).2
      · rfl

end nameAfter

/-! ### Lines that can come up -/

/-- The lines that are the same in all scripts. -/
def fixedTexts : List String :=
  ["-- Generated by otuigen", "-- OTClient module", "", "-- Event handlers", "end",
    "-- Initialize module", "function init()", "    return false", "  end",
    "  -- Widget references", "  -- Connect event handlers", "    \x7d)", "  return true",
    "-- Show the root widget", "function show()", "-- Hide the root widget", "function hide()",
    "-- Toggle root widget visibility", "function toggle()", "      hide()", "    else",
    "      show()", "    end", "-- Cleanup module", "function terminate()"]

/-- A line that can come up in a script: its variables are names, and what else it says stands on
one line. -/
def Line.IsSound : Line → Prop
  | .fixed text => text ∈ fixedTexts
  | .titleNote title => OnOneLine title
  | .declare v | .ifEmpty v | .ifThere v | .connect v | .disconnect v | .ifVisible v | .clear v =>
    IsName v
  | .handler v event parameters =>
    IsName v ∧ OnOneLine event ∧ ∀ p ∈ parameters, OnOneLine p
  | .handlerNote event type id => OnOneLine event ∧ OnOneLine type ∧ OnOneLine id
  | .load v module => IsName v ∧ OnOneLine module
  | .loadFailure title module => OnOneLine title ∧ OnOneLine module
  | .lookUp v root id => IsName v ∧ IsName root ∧ OnOneLine id
  | .lookUpFailure title id => OnOneLine title ∧ OnOneLine id
  | .bind event v _ => OnOneLine event ∧ IsName v
  | .tell v action => IsName v ∧ OnOneLine action

/-- The expression that loads the root widget of a module. -/
def loading (module : String) : String := "g_ui.loadUI('" ++ module ++ "', rootWidget)"

/-- The expression that looks a widget up by its id below the widget in a variable. -/
def lookingUp (root id : String) : String := root ++ ":recursiveGetChildById('" ++ id ++ "')"

/-- What a line means to do to a variable. -/
def Line.deed? : Line → Option Deed
  | .declare v => some (.declares v)
  | .load v module => some (.assigns v (loading module))
  | .lookUp v root id => some (.assigns v (lookingUp root id))
  | .connect v => some (.connects v)
  | .disconnect v => some (.disconnects v)
  | .clear v => some (.assigns v "nil")
  | _ => none

/-! ### What lines do -/

theorem IsName.exists_cons {v : String} (h : IsName v) :
    ∃ c cs, v.toList = c :: cs ∧ isVariableChar c = true := by
  obtain ⟨c, cs, hcs⟩ := List.exists_cons_of_ne_nil (mt String.toList_eq_nil_iff.1 h.ne_empty)
  exact ⟨c, cs, hcs, h.chars c (hcs ▸ List.mem_cons_self)⟩

section Parts

variable {front back start rest v : String} {cs : List Char} {c : Char}

theorem nameAfter?_of_start (h : excludesName front.toList start.toList = true) (rest : String) :
    nameAfter? front.toList (start ++ rest).toList = none := by
  rw [String.toList_append]
  exact nameAfter?_of_excludesName h _

theorem nameBetween?_of_none (h : nameAfter? front.toList cs = none) :
    nameBetween? front back cs = none := by
  rw [nameBetween?, h]

theorem assignment?_of_none (h : nameAfter? "  ".toList cs = none) : assignment? cs = none := by
  rw [assignment?, h]

theorem nameBetween?_name (hv : IsName v) (hback : back.toList = c :: cs)
    (hc : isVariableChar c = false) :
    nameBetween? front back (front ++ (v ++ back)).toList = some v := by
  rw [nameBetween?, String.toList_append, String.toList_append, hback, nameAfter?_name hv hc]
  exact (if_pos rfl).trans (congrArg some String.ofList_toList)

/-- The texts that a name stands behind where something is done to a variable. -/
def fronts : List String := ["local ", "    connect(", "    disconnect(", "  "]

/-- A line without a name behind one of the texts does nothing. -/
theorem deed?_eq_none {line : String}
    (h : ∀ front ∈ fronts, nameAfter? front.toList line.toList = none) : deed? line = none := by
  simp only [fronts, List.forall_mem_cons] at h
  obtain ⟨hlocal, hconnect, hdisconnect, hassign, -⟩ := h
  rw [deed?, nameBetween?_of_none hlocal, nameBetween?_of_none hconnect,
    nameBetween?_of_none hdisconnect, assignment?_of_none hassign]
  rfl

/-- A line that begins with no place for a name does nothing. -/
theorem deed?_of_excludesName
    (h : ∀ front ∈ fronts, excludesName front.toList start.toList = true) (rest : String) :
    deed? (start ++ rest) = none :=
  deed?_eq_none fun front hfront => nameAfter?_of_start (h front hfront) rest

/-- At the margin variables are declared. -/
theorem deed?_local (rest : String) :
    deed? ("local " ++ rest)
      = (nameBetween? "local " " = nil" ("local " ++ rest).toList).map .declares := by
  have hnone : ∀ front ∈ fronts.tail, nameAfter? front.toList ("local " ++ rest).toList = none :=
    fun front hfront => nameAfter?_of_start ((by decide : ∀ front ∈ fronts.tail,
      excludesName front.toList "local ".toList = true) front hfront) rest
  simp only [fronts, List.tail_cons, List.forall_mem_cons] at hnone
  obtain ⟨hconnect, hdisconnect, hassign, -⟩ := hnone
  rw [deed?, nameBetween?_of_none hconnect, nameBetween?_of_none hdisconnect,
    assignment?_of_none hassign]
  exact Option.or_none

/-- Two characters from the margin variables are given values. -/
theorem deed?_blanks {line : String} (h : line.toList = ' ' :: ' ' :: c :: cs) (hc : c ≠ ' ') :
    deed? line = (assignment? line.toList).map fun (var, value) => .assigns var value := by
  have hlocal : nameAfter? "local ".toList line.toList = none := by
    have hblank : excludesName "local ".toList [' '] = true := by decide
    rw [h]
    exact nameAfter?_of_excludesName hblank _
  have hdeeper : ∀ front, nameAfter? (' ' :: ' ' :: ' ' :: front) line.toList = none := by
    intro front
    rw [h]
    exact if_neg hc.symm
  have hconnect : nameAfter? "    connect(".toList line.toList = none := hdeeper _
  have hdisconnect : nameAfter? "    disconnect(".toList line.toList = none := hdeeper _
  rw [deed?, nameBetween?_of_none hlocal, nameBetween?_of_none hconnect,
    nameBetween?_of_none hdisconnect]
  rfl

/-- What a variable is given: what stands behind a sign. -/
theorem deed?_assignment (hv : IsName v) (value : String) :
    deed? ("  " ++ (v ++ (" = " ++ value))) = some (.assigns v value) := by
  obtain ⟨c, cs, hcs, hc⟩ := hv.exists_cons
  have hline : ("  " ++ (v ++ (" = " ++ value))).toList
      = "  ".toList ++ (v.toList ++ ' ' :: ("= ".toList ++ value.toList)) := by
    simp
  have hhead : ("  " ++ (v ++ (" = " ++ value))).toList
      = ' ' :: ' ' :: c :: (cs ++ ' ' :: ("= ".toList ++ value.toList)) := by
    rw [hline, hcs]
    rfl
  rw [deed?_blanks hhead (by rintro rfl; cases hc), assignment?, hline, nameAfter?_name hv rfl]
  simp

/-- A condition gives no value. -/
theorem deed?_condition {word : String} (hword : IsName word) (hv : IsName v) (rest : String) :
    deed? ("  " ++ (word ++ (" " ++ (v ++ rest)))) = none := by
  obtain ⟨c, cs, hcs, hc⟩ := hword.exists_cons
  obtain ⟨d, ds, hds, hd⟩ := hv.exists_cons
  have hline : ("  " ++ (word ++ (" " ++ (v ++ rest)))).toList
      = "  ".toList ++ (word.toList ++ ' ' :: d :: (ds ++ rest.toList)) := by
    simp [hds]
  have hhead : ("  " ++ (word ++ (" " ++ (v ++ rest)))).toList
      = ' ' :: ' ' :: c :: (cs ++ ' ' :: d :: (ds ++ rest.toList)) := by
    rw [hline, hcs]
    rfl
  rw [deed?_blanks hhead (by rintro rfl; cases hc), assignment?, hline, nameAfter?_name hword rfl]
  split
  · next heq =>
    simp only [Option.some.injEq, Prod.mk.injEq, List.cons.injEq] at heq
    rw [heq.2.2.1] at hd
    cases hd
  · rfl

/-- What is told to a widget neither connects nor disconnects it. -/
theorem deed?_tell (hv : IsName v) (rest : String) :
    deed? ("    " ++ (v ++ (":" ++ rest))) = none := by
  have hline : ("    " ++ (v ++ (":" ++ rest))).toList
      = "    ".toList ++ (v.toList ++ ':' :: rest.toList) := by
    simp
  have hword : ∀ word : List Char, (∀ a ∈ word, isVariableChar a = true) →
      nameAfter? ("    ".toList ++ (word ++ ['('])) ("    " ++ (v ++ (":" ++ rest))).toList
        = none := by
    intro word hword
    rw [hline, nameAfter?_append]
    exact nameAfter?_of_word hword rfl hv.chars rfl (by decide) [] rest.toList
  refine deed?_eq_none ?_
  simp only [fronts, List.forall_mem_cons]
  exact ⟨nameAfter?_of_start (by decide) _, hword "connect".toList (List.all_eq_true.1 rfl),
    hword "disconnect".toList (List.all_eq_true.1 rfl), nameAfter?_of_start (by decide) _, by simp⟩

/-- What is declared without a name right behind the word is no variable. -/
theorem deed?_localWord {word : String} (hword : IsName word) (hv : IsName v) (rest : String) :
    deed? ("local " ++ (word ++ (" " ++ (v ++ rest)))) = none := by
  obtain ⟨d, ds, hds, hd⟩ := hv.exists_cons
  have hline : ("local " ++ (word ++ (" " ++ (v ++ rest)))).toList
      = "local ".toList ++ (word.toList ++ ' ' :: d :: (ds ++ rest.toList)) := by
    simp [hds]
  rw [deed?_local, nameBetween?, hline, nameAfter?_name hword rfl]
  dsimp only
  rw [if_neg]
  · rfl
  · intro heq
    have hsign : d = '=' := (List.cons.inj (List.cons.inj heq).2).1
    rw [hsign] at hd
    cases hd

end Parts

theorem deed?_of_mem_fixedTexts : ∀ text ∈ fixedTexts, deed? text = none := by
  decide +kernel

/-- **Lines do what they mean**: the text of a line that can come up is read as what the line
does. -/
theorem deed?_text {l : Line} (h : l.IsSound) : deed? l.text = l.deed? := by
  have hif : IsName "if" := ⟨by decide, List.all_eq_true.1 rfl, by decide⟩
  cases l with
  | fixed text => exact deed?_of_mem_fixedTexts text h
  | titleNote title =>
    change deed? ("-- Module: " ++ title) = none
    exact deed?_of_excludesName (by decide) title
  | declare v =>
    have hv : IsName v := h
    change deed? ("local " ++ v ++ " = nil") = some (.declares v)
    rw [String.append_assoc, deed?_local, nameBetween?_name hv rfl rfl]
    rfl
  | handler v event parameters =>
    have hfunction : IsName "function" := ⟨by decide, List.all_eq_true.1 rfl, by decide⟩
    have hopening : "local function " = "local " ++ ("function" ++ " ") := by decide
    change deed? ("local function " ++ v ++ "_" ++ event ++ "(" ++ join ", " parameters ++ ")")
      = none
    simp only [hopening, String.append_assoc]
    exact deed?_localWord hfunction h.1 _
  | handlerNote event type id =>
    change deed? ("  -- Handle " ++ event ++ " for " ++ type ++ " '" ++ id ++ "'") = none
    simp only [String.append_assoc]
    exact deed?_of_excludesName (by decide) _
  | load v module =>
    have hsign : " = g_ui.loadUI('" = " = " ++ "g_ui.loadUI('" := by decide
    change deed? ("  " ++ v ++ " = g_ui.loadUI('" ++ module ++ "', rootWidget)")
      = some (.assigns v ("g_ui.loadUI('" ++ module ++ "', rootWidget)"))
    simp only [hsign, String.append_assoc]
    exact deed?_assignment h.1 _
  | ifEmpty v =>
    have hnot : IsName "not" := ⟨by decide, List.all_eq_true.1 rfl, by decide⟩
    have hopening : "  if not " = "  " ++ ("if" ++ (" " ++ ("not" ++ " "))) := by decide
    change deed? ("  if not " ++ v ++ " then") = none
    simp only [hopening, String.append_assoc]
    exact deed?_condition hif hnot _
  | loadFailure title module =>
    change deed? ("    g_logger.error(\"" ++ title ++ ": Failed to load UI from '" ++ module
      ++ ".otui'\")") = none
    simp only [String.append_assoc]
    exact deed?_of_excludesName (by decide) _
  | lookUp v root id =>
    change deed? ("  " ++ v ++ " = " ++ root ++ ":recursiveGetChildById('" ++ id ++ "')")
      = some (.assigns v (root ++ ":recursiveGetChildById('" ++ id ++ "')"))
    simp only [String.append_assoc]
    exact deed?_assignment h.1 _
  | lookUpFailure title id =>
    change deed? ("    g_logger.warning(\"" ++ title ++ ": Widget '" ++ id
      ++ "' not found in UI\")") = none
    simp only [String.append_assoc]
    exact deed?_of_excludesName (by decide) _
  | ifThere v =>
    have hopening : "  if " = "  " ++ ("if" ++ " ") := by decide
    change deed? ("  if " ++ v ++ " then") = none
    simp only [hopening, String.append_assoc]
    exact deed?_condition hif h _
  | connect v =>
    have hv : IsName v := h
    change deed? ("    connect(" ++ v ++ ", \x7b") = some (.connects v)
    rw [String.append_assoc, deed?, nameBetween?_of_none (nameAfter?_of_start (by decide) _),
      nameBetween?_name hv rfl rfl]
    rfl
  | bind event v isLast =>
    change deed? ("      " ++ event ++ " = " ++ v ++ "_" ++ event ++ _) = none
    simp only [String.append_assoc]
    exact deed?_of_excludesName (by decide) _
  | disconnect v =>
    have hv : IsName v := h
    change deed? ("    disconnect(" ++ v ++ ")") = some (.disconnects v)
    rw [String.append_assoc, deed?, nameBetween?_of_none (nameAfter?_of_start (by decide) _),
      nameBetween?_of_none (nameAfter?_of_start (by decide) _), nameBetween?_name hv rfl rfl]
    rfl
  | tell v action =>
    change deed? ("    " ++ v ++ ":" ++ action ++ "()") = none
    simp only [String.append_assoc]
    exact deed?_tell h.1 _
  | ifVisible v =>
    change deed? ("    if " ++ v ++ ":isVisible() then") = none
    rw [String.append_assoc]
    exact deed?_of_excludesName (by decide) _
  | clear v =>
    have hsign : " = nil" = " = " ++ "nil" := by decide
    change deed? ("  " ++ v ++ " = nil") = some (.assigns v "nil")
    rw [String.append_assoc, hsign]
    exact deed?_assignment h _

/-! ### Lines of text -/

instance (s : String) : Decidable (OnOneLine s) := inferInstanceAs (Decidable ('\n' ∉ s.toList))

theorem onOneLine_append {s t : String} (hs : OnOneLine s) (ht : OnOneLine t) :
    OnOneLine (s ++ t) := by
  rw [OnOneLine, String.toList_append, List.mem_append, not_or]
  exact ⟨hs, ht⟩

theorem onOneLine_join {sep : String} (hsep : OnOneLine sep) {parts : List String}
    (h : ∀ p ∈ parts, OnOneLine p) : OnOneLine (join sep parts) := by
  rw [join]
  induction parts with
  | nil => exact (by decide : OnOneLine "")
  | cons p parts ih =>
    obtain ⟨hp, hparts⟩ := List.forall_mem_cons.1 h
    cases parts with
    | nil => rwa [String.intercalate_singleton]
    | cons q parts =>
      rw [String.intercalate_cons_cons]
      exact onOneLine_append (onOneLine_append hp hsep) (ih hparts)

theorem IsName.onOneLine {v : String} (h : IsName v) : OnOneLine v := fun hmem => by
  have hc := h.chars _ hmem
  cases hc

/-- Lines that can come up stand on one line. -/
theorem onOneLine_text {l : Line} (h : l.IsSound) : OnOneLine l.text := by
  cases l with
  | fixed text => exact (by decide +kernel : ∀ text ∈ fixedTexts, OnOneLine text) text h
  | titleNote title => exact onOneLine_append (by decide) h
  | declare v =>
    exact onOneLine_append (onOneLine_append (by decide) (IsName.onOneLine h)) (by decide)
  | handler v event parameters =>
    obtain ⟨hv, hevent, hparameters⟩ := h
    have hname : OnOneLine ("local function " ++ v ++ "_" ++ event ++ "(") :=
      onOneLine_append (onOneLine_append (onOneLine_append (onOneLine_append (by decide)
        hv.onOneLine) (by decide)) hevent) (by decide)
    have hjoined : OnOneLine (join ", " parameters) := onOneLine_join (by decide) hparameters
    exact onOneLine_append (onOneLine_append hname hjoined) (by decide)
  | handlerNote event type id =>
    obtain ⟨hevent, htype, hid⟩ := h
    have hstart : OnOneLine ("  -- Handle " ++ event ++ " for " ++ type) :=
      onOneLine_append (onOneLine_append (onOneLine_append (by decide) hevent) (by decide)) htype
    exact onOneLine_append (onOneLine_append (onOneLine_append hstart (by decide)) hid) (by decide)
  | load v module =>
    exact onOneLine_append (onOneLine_append (onOneLine_append (onOneLine_append (by decide)
      h.1.onOneLine) (by decide)) h.2) (by decide)
  | loadFailure title module =>
    exact onOneLine_append (onOneLine_append (onOneLine_append (onOneLine_append (by decide) h.1)
      (by decide)) h.2) (by decide)
  | lookUp v root id =>
    obtain ⟨hv, hroot, hid⟩ := h
    have hstart : OnOneLine ("  " ++ v ++ " = " ++ root) :=
      onOneLine_append (onOneLine_append (onOneLine_append (by decide) hv.onOneLine) (by decide))
        hroot.onOneLine
    exact onOneLine_append (onOneLine_append (onOneLine_append hstart (by decide)) hid) (by decide)
  | lookUpFailure title id =>
    exact onOneLine_append (onOneLine_append (onOneLine_append (onOneLine_append (by decide) h.1)
      (by decide)) h.2) (by decide)
  | bind event v isLast =>
    have hname : OnOneLine ("      " ++ event ++ " = " ++ v ++ "_" ++ event) :=
      onOneLine_append (onOneLine_append (onOneLine_append (onOneLine_append (onOneLine_append
        (by decide) h.1) (by decide)) h.2.onOneLine) (by decide)) h.1
    exact onOneLine_append hname (by cases isLast <;> decide)
  | tell v action =>
    exact onOneLine_append (onOneLine_append (onOneLine_append (onOneLine_append (by decide)
      h.1.onOneLine) (by decide)) h.2) (by decide)
  | ifEmpty v | ifThere v | connect v | disconnect v | ifVisible v | clear v =>
    exact onOneLine_append (onOneLine_append (by decide) (IsName.onOneLine h)) (by decide)

theorem sublist_of_mem_cutChars {sep : Char} {cs p : List Char} (h : p ∈ cutChars sep cs) :
    p.Sublist cs := by
  induction cs generalizing p with
  | nil =>
    obtain rfl := List.mem_singleton.1 h
    exact .slnil
  | cons c cs ih =>
    by_cases hc : c = sep
    · rw [cutChars, if_pos hc] at h
      rcases List.mem_cons.1 h with rfl | h
      · exact List.nil_sublist _
      · exact (ih h).cons c
    · obtain ⟨q, qs, hq⟩ := List.exists_cons_of_ne_nil (cutChars_ne_nil sep cs)
      rw [cutChars_cons_of_ne hc hq] at h
      rw [hq] at ih
      rcases List.mem_cons.1 h with rfl | h
      · exact (ih List.mem_cons_self).cons_cons c
      · exact (ih (List.mem_cons_of_mem q h)).cons c

/-- What parameters a signature has on one line. -/
theorem onOneLine_of_mem_parameters {signature p : String} (h : OnOneLine signature)
    (hp : p ∈ parameters signature) : OnOneLine p := by
  unfold parameters at hp
  dsimp only at hp
  split at hp
  · obtain ⟨hp, -⟩ := List.mem_filter.1 hp
    obtain ⟨cs, hcs, rfl⟩ := List.mem_map.1 hp
    rw [OnOneLine, String.toList_ofList]
    intro hmem
    have hinner := (sublist_of_mem_cutChars hcs).mem (mem_of_mem_trimChars hmem)
    exact h ((List.dropWhile_sublist _).mem (List.mem_of_mem_drop
      ((List.takeWhile_sublist _).mem hinner)))
  · cases hp

/-! ### All lines of a script -/

/-- The lines of a text: its pieces between line feeds. -/
def textLines (text : String) : List String := cut '\n' text

theorem textLines_join {ls : List Line} (hne : ls ≠ []) (h : ∀ l ∈ ls, l.IsSound) :
    textLines (join "\n" (ls.map Line.text) ++ "\n") = ls.map Line.text ++ [""] := by
  have hpieces : ∀ p ∈ (ls.map Line.text).map String.toList, '\n' ∉ p := by
    intro p hp
    rw [List.map_map] at hp
    obtain ⟨l, hl, rfl⟩ := List.mem_map.1 hp
    exact onOneLine_text (h l hl)
  have hcut := cutChars_intercalate (by simpa using hne) hpieces
  have htoList : (join "\n" (ls.map Line.text) ++ "\n").toList
      = ['\n'].intercalate ((ls.map Line.text).map String.toList) ++ '\n' :: [] := by
    rw [join, String.toList_append, String.toList_intercalate]
    rfl
  rw [textLines, cut, htoList, cutChars_append_cons, hcut, List.map_append, List.map_map,
    List.map_map]
  simp [cutChars, Function.comp_def]

end Script

end Otui
