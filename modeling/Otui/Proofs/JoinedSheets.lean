import Otui.Proofs.EditedLines
import Otui.Proofs.Recording

/-!
# Style sheets one after the other

A text that begins with a header leaves the sections before it as they are, so the sheet of two
texts is that of the first with that of the second on top (`read_append`), and so on for any number
of them (`overlayTexts_eq`). What the first text leaves open, a state or a widget that is passed
over, ends with the section it is in.
-/

namespace Otui

/-! ### Writing lists of entries -/

namespace Ledger

variable {ν : Type}

theorem writeIn_writeIn_self (key : String) (v w : ν) (es : List (String × ν)) :
    writeIn key w (writeIn key v es) = writeIn key w es := by
  induction es with
  | nil => simp only [writeIn, if_true]
  | cons e es ih =>
    obtain ⟨k, u⟩ := e
    by_cases h : k = key <;> simp only [writeIn, h, if_true, if_false, ih]

theorem writeIn_comm {k l : String} (hne : k ≠ l) {es : List (String × ν)}
    (hmem : k ∈ es.map Prod.fst) (v w : ν) :
    writeIn k v (writeIn l w es) = writeIn l w (writeIn k v es) := by
  induction es with
  | nil => cases hmem
  | cons e es ih =>
    obtain ⟨j, u⟩ := e
    by_cases hk : j = k
    · have hl : j ≠ l := fun hl => hne (hk ▸ hl)
      simp only [writeIn, hk, if_true, if_neg hne]
    · have hrest : k ∈ es.map Prod.fst :=
        (List.mem_cons.1 hmem).resolve_left fun h => hk h.symm
      by_cases hl : j = l
      · simp only [writeIn, hl, if_true, if_neg hne.symm]
      · simp only [writeIn, hk, hl, if_false, ih hrest]

/-- The last of two writes under one name counts. -/
theorem insert_insert_self (m : Ledger ν) (key : String) (v w : ν) :
    (m.insert key v).insert key w = m.insert key w :=
  ext_entries (writeIn_writeIn_self key v w m.entries)

/-- Writing under a name that is there can come before another write as well as after it. -/
theorem insert_comm {m : Ledger ν} {k l : String} (hne : k ≠ l) (hmem : k ∈ m.keys) (v w : ν) :
    (m.insert l w).insert k v = (m.insert k v).insert l w :=
  ext_entries (writeIn_comm hne hmem v w)

theorem insertAll_cons (m : Ledger ν) (e : String × ν) (es : List (String × ν)) :
    m.insertAll (e :: es) = (m.insert e.1 e.2).insertAll es :=
  rfl

theorem insertAll_append (m : Ledger ν) (es fs : List (String × ν)) :
    m.insertAll (es ++ fs) = (m.insertAll es).insertAll fs :=
  List.foldl_append

theorem insertAll_insert {m : Ledger ν} {key : String} (hkey : key ∈ m.keys) (value : ν)
    {es : List (String × ν)} (hnew : key ∉ es.map Prod.fst) :
    (m.insert key value).insertAll es = (m.insertAll es).insert key value := by
  induction es generalizing m with
  | nil => rfl
  | cons e es ih =>
    rw [List.map_cons, List.mem_cons, not_or] at hnew
    rw [insertAll_cons, insertAll_cons, ← insert_comm hnew.1 hkey,
      ih (mem_keys_insert.2 (.inl hkey)) hnew.2]

/-- Writing into the map on top is writing on top. -/
theorem overlay_insert (base top : Ledger ν) (key : String) (value : ν) :
    base.overlay (top.insert key value) = (base.overlay top).insert key value := by
  have hall : ∀ (es : List (String × ν)) (m : Ledger ν), (es.map Prod.fst).Nodup →
      m.insertAll (writeIn key value es) = (m.insertAll es).insert key value := by
    intro es
    induction es with
    | nil => exact fun _ _ => rfl
    | cons e es ih =>
      obtain ⟨k, v⟩ := e
      intro m hnodup
      obtain ⟨hnew, hnodup⟩ := List.nodup_cons.1 hnodup
      rw [writeIn]
      split
      · next hk =>
        subst hk
        have hkey : k ∈ (m.insert k v).keys := mem_keys_insert.2 (.inr rfl)
        rw [insertAll_cons, insertAll_cons, ← insertAll_insert hkey value hnew,
          insert_insert_self]
      · rw [insertAll_cons, insertAll_cons, ih _ hnodup]
  exact hall top.entries base top.nodup

/-- A map that a list writes lies on top as the list is written. -/
theorem overlay_ofList (m : Ledger ν) (es : List (String × ν)) :
    m.overlay (ofList es) = m.insertAll es := by
  induction es using List.reverseRecOn with
  | nil => rfl
  | append_singleton es e ih =>
    have hlast : ofList (es ++ [e]) = (ofList es).insert e.1 e.2 := insertAll_append _ es [e]
    rw [hlast, overlay_insert, ih, insertAll_append]
    rfl

theorem ofList_append (es fs : List (String × ν)) :
    ofList (es ++ fs) = (ofList es).overlay (ofList fs) := by
  rw [overlay_ofList]
  exact insertAll_append _ es fs

/-- The names of a map below another keep their places, and the new ones follow. -/
theorem keys_overlay (base top : Ledger ν) :
    (base.overlay top).keys = base.keys ++ top.keys.filter fun k => k ∉ base.keys := by
  have hall : ∀ (es : List (String × ν)) (m : Ledger ν), (es.map Prod.fst).Nodup →
      (m.insertAll es).keys = m.keys ++ (es.map Prod.fst).filter fun k => k ∉ m.keys := by
    intro es
    induction es with
    | nil => exact fun m _ => (List.append_nil _).symm
    | cons e es ih =>
      intro m hnodup
      obtain ⟨hnew, hnodup⟩ := List.nodup_cons.1 hnodup
      rw [insertAll_cons, ih _ hnodup, keys_insert, List.map_cons]
      by_cases he : e.1 ∈ m.keys
      · rw [if_pos he, List.filter_cons_of_neg (by simpa using he)]
      · have hrest : ∀ k ∈ es.map Prod.fst, k ≠ e.1 := fun k hk hke => hnew (hke ▸ hk)
        rw [if_neg he, List.filter_cons_of_pos (by simpa using he), List.append_assoc,
          List.singleton_append]
        refine congrArg (fun ks => m.keys ++ e.1 :: ks) (List.filter_congr fun k hk => ?_)
        simp [hrest k hk]
  exact hall top.entries base top.nodup

/-- Nothing below a map leaves the map. -/
theorem empty_overlay (m : Ledger ν) : ({} : Ledger ν).overlay m = m :=
  ext_entries (entries_ofList m.nodup)

end Ledger

/-! ### Lines of texts one after the other -/

namespace Text

/-- The lines of two texts with a line feed between them. -/
theorem lines_append (a b : String) : lines (a ++ "\n" ++ b) = lines a ++ lines b := by
  have hchars : (a ++ "\n" ++ b).toList = a.toList ++ '\n' :: b.toList := by
    simp [String.toList_append]
  rw [lines, hchars, cutChars_append_cons, List.map_append]
  rfl

end Text

namespace Sheet

open Otui.Text

/-- The content lines among lines, none of them with a number. -/
def contents (ls : List (List Char)) : List ContentLine := ls.filterMap (ContentLine.read? 0)

theorem contents_append (ls ks : List (List Char)) :
    contents (ls ++ ks) = contents ls ++ contents ks :=
  List.filterMap_append

theorem contents_cons_of_none {cs : List Char} (h : ContentLine.read? 0 cs = none)
    (ls : List (List Char)) : contents (cs :: ls) = contents ls :=
  List.filterMap_cons_none h

theorem contents_cons_of_some {cs : List Char} {l : ContentLine}
    (h : ContentLine.read? 0 cs = some l) (ls : List (List Char)) :
    contents (cs :: ls) = l :: contents ls :=
  List.filterMap_cons_some h

theorem map_unnumbered_read? (number : Nat) (cs : List Char) :
    (ContentLine.read? number cs).map unnumbered = ContentLine.read? 0 cs := by
  rw [ContentLine.read?, ContentLine.read?]
  split <;> rfl

theorem map_unnumbered_contentLinesFrom (number : Nat) (ls : List (List Char)) :
    (contentLinesFrom number ls).map unnumbered = contents ls := by
  induction ls generalizing number with
  | nil => rfl
  | cons cs ls ih =>
    have hread := map_unnumbered_read? number cs
    rw [contentLinesFrom]
    cases h : ContentLine.read? number cs with
    | none =>
      rw [h] at hread
      rw [contents_cons_of_none hread.symm]
      exact ih _
    | some l =>
      rw [h] at hread
      rw [contents_cons_of_some hread.symm]
      exact congrArg _ (ih _)

/-- A style sheet is read from its lines, one by one; where they stand does not matter. -/
theorem read_eq (text : String) : read text = ofSections (sections (contents (lines text))).2 := by
  rw [read_eq_unnumbered, contentLines, map_unnumbered_contentLinesFrom]

/-! ### Sections of texts one after the other -/

theorem sections_cons_of_header {l : ContentLine} {name : String} {parent : Option String}
    (h : header? l = some (name, parent)) (ls : List ContentLine) :
    sections (l :: ls) = ([], ⟨name, parent, (sections ls).1⟩ :: (sections ls).2) := by
  rw [sections, h]

theorem sections_cons_of_none {l : ContentLine} (h : header? l = none) (ls : List ContentLine) :
    sections (l :: ls) = (l :: (sections ls).1, (sections ls).2) := by
  rw [sections, h]

/-- No section goes on where a header comes. -/
theorem sections_append {ls ks : List ContentLine}
    (h : ∀ l ∈ ks.head?, (header? l).isSome = true) :
    sections (ls ++ ks) = ((sections ls).1, (sections ls).2 ++ (sections ks).2) := by
  induction ls with
  | nil =>
    have hbefore : (sections ks).1 = [] := by
      cases ks with
      | nil => rfl
      | cons k ks =>
        obtain ⟨⟨name, parent⟩, hk⟩ := Option.isSome_iff_exists.1 (h k rfl)
        rw [sections_cons_of_header hk]
    exact Prod.ext hbefore rfl
  | cons l ls ih =>
    rw [List.cons_append]
    cases hl : header? l with
    | none => rw [sections_cons_of_none hl, sections_cons_of_none hl, ih]
    | some header =>
      rw [sections_cons_of_header hl, sections_cons_of_header hl, ih, List.cons_append]

theorem ofSections_append (ss ts : List Section) :
    ofSections (ss ++ ts) = (ofSections ss).overlay (ofSections ts) := by
  rw [ofSections, List.map_append, Ledger.ofList_append]
  rfl

/-! ### Texts one after the other -/

/-- If a text has content lines, the first is a header. -/
def BeginsWithHeader (text : String) : Prop :=
  ∀ l ∈ (contentLines text).head?, (header? l).isSome = true

instance (text : String) : Decidable (BeginsWithHeader text) :=
  inferInstanceAs (Decidable (∀ l ∈ (contentLines text).head?, (header? l).isSome = true))

/-- The sheet of two texts is that of the first with that of the second on top. -/
theorem read_append (a : String) {b : String} (hb : BeginsWithHeader b) :
    read (a ++ "\n" ++ b) = (read a).overlay (read b) := by
  have hhead : ∀ l ∈ (contents (lines b)).head?, (header? l).isSome = true := by
    rw [← map_unnumbered_contentLinesFrom 1, List.head?_map]
    intro l hl
    obtain ⟨k, hk, rfl⟩ := Option.map_eq_some_iff.1 hl
    exact hb k hk
  rw [read_eq, lines_append, contents_append, sections_append hhead, ofSections_append, ← read_eq,
    ← read_eq]

/-- The sheets of some texts, put on top of a sheet one by one. -/
def overlayTexts (sheet : Sheet) (texts : List String) : Sheet :=
  texts.foldl (fun sheet text => sheet.overlay (read text)) sheet

theorem overlayTexts_cons (sheet : Sheet) (text : String) (texts : List String) :
    overlayTexts sheet (text :: texts) = overlayTexts (sheet.overlay (read text)) texts :=
  rfl

theorem overlayTexts_append (sheet : Sheet) (texts more : List String) :
    overlayTexts sheet (texts ++ more) = overlayTexts (overlayTexts sheet texts) more :=
  List.foldl_append

theorem overlayTexts_read (a : String) {bs : List String} (hbs : ∀ b ∈ bs, BeginsWithHeader b) :
    overlayTexts (read a) bs = read (Text.join "\n" (a :: bs)) := by
  induction bs generalizing a with
  | nil => rfl
  | cons b bs ih =>
    obtain ⟨hb, hbs⟩ := List.forall_mem_cons.1 hbs
    have hjoin : Text.join "\n" (a :: b :: bs) = Text.join "\n" ((a ++ "\n" ++ b) :: bs) := rfl
    rw [overlayTexts_cons, ← read_append a hb, ih _ hbs, hjoin]

/-- Style sheets put on top of each other are the sheet of their texts one after the other. -/
theorem overlayTexts_eq {texts : List String} (h : ∀ b ∈ texts.tail, BeginsWithHeader b) :
    overlayTexts {} texts = read (Text.join "\n" texts) := by
  cases texts with
  | nil => rfl
  | cons a bs =>
    rw [List.tail_cons] at h
    rw [overlayTexts_cons, Ledger.empty_overlay, overlayTexts_read a h]

end Sheet

end Otui
