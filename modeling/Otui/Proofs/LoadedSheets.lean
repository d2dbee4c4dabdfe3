import Otui.Files.Tree
import Otui.Proofs.JoinedSheets
import Otui.Style.Loader

/-!
# Loading all style sheets of a file tree

Loading puts the sheets of all files on top of each other, file by file. When every file after the
first begins with a header, this is the sheet of all texts one after the other, so that all of them
could as well stand in one file (`sheets_compose`). Files that were read before are not read again,
which makes no difference as long as the files are as they were (`AreCurrent`).
-/

namespace Otui

/-! ### Work that only reads -/

namespace Work

variable {σ β γ : Type}

/-- On a file tree, work that starts with a state gives a result and another state. It speaks
notices, and leaves the tree as it is. -/
def Gives (w : Work σ (StateM FileTree) β) (tree : FileTree) (s : σ) (b : β) (s' : σ) : Prop :=
  ∀ notices, ∃ notices', w s notices tree = (((.ok b, s'), notices'), tree)

variable {tree : FileTree} {s s' s'' : σ} {b : β} {c : γ}

theorem gives_pure (b : β) : Gives (pure b) tree s b s := fun notices => ⟨notices, rfl⟩

/-- One step after another. -/
theorem Gives.bind {w : Work σ (StateM FileTree) β} {f : β → Work σ (StateM FileTree) γ}
    (hw : Gives w tree s b s') (hf : Gives (f b) tree s' c s'') :
    Gives (w >>= f) tree s c s'' := by
  intro notices
  obtain ⟨spoken, hw⟩ := hw notices
  obtain ⟨all, hf⟩ := hf spoken
  refine ⟨all, ?_⟩
  have hrun : (w >>= f) s notices tree
      = (match w s notices tree with
        | (((r, s), notices), tree) => (ExceptT.bindCont f r) s notices tree) := rfl
  rw [hrun, hw]
  exact hf

theorem gives_say (n : Notice) : Gives (say n) tree s () s := fun notices => ⟨notices ++ [n], rfl⟩

theorem gives_get : Gives (get : Work σ (StateM FileTree) σ) tree s s s :=
  fun notices => ⟨notices, rfl⟩

theorem gives_modify (f : σ → σ) :
    Gives (modify f : Work σ (StateM FileTree) Unit) tree s () (f s) :=
  fun notices => ⟨notices, rfl⟩

theorem gives_ofNoted (x : Noted β) :
    Gives (ofNoted x : Work σ (StateM FileTree) β) tree s x.value s :=
  fun notices => ⟨notices ++ x.notices, rfl⟩

/-- A look at the tree. -/
theorem gives_lift {x : StateM FileTree β} (h : x tree = (b, tree)) :
    Gives (lift x) tree s b s := by
  intro notices
  refine ⟨notices, ?_⟩
  simp only [lift, bind, StateT.bind, h]
  rfl

theorem gives_liftExcept {x : StateM FileTree (Except Fault β)} (h : x tree = (.ok b, tree)) :
    Gives (liftExcept x) tree s b s := by
  intro notices
  refine ⟨notices, ?_⟩
  simp only [liftExcept, bind, StateT.bind, h]
  rfl

/-- All of some work: its result, with what it spoke. -/
theorem Gives.complete {w : Work σ (StateM FileTree) β} (h : Gives w tree s b s') :
    ∃ notices, w.complete s tree = ((⟨.ok b, notices⟩, s'), tree) := by
  obtain ⟨notices, hrun⟩ := h []
  refine ⟨notices, ?_⟩
  have hcomplete : w.complete s tree
      = (match w s [] tree with
        | (((r, s), notices), tree) => ((⟨r, notices⟩, s), tree)) := rfl
  rw [hcomplete, hrun]

end Work

/-! ### Texts of files -/

namespace FileTree

/-- The text of a file, with every line end a line feed. -/
def text? (tree : FileTree) (p : Path) : Option String :=
  match tree.readBytes p with
  | .error _ => none
  | .ok bytes =>
    match Text.decodeUtf8 bytes with
    | .error _ => none
    | .ok text => some (Text.unifyLineEnds text)

/-- The style sheets that a path leads to: the file, or what has their names below the directory, in
the order of paths. -/
def sheetPaths (tree : FileTree) (p : Path) : List Path :=
  if tree.isFile p then [p]
  else if tree.isDirectory p then
    (((tree.below p).filter fun f =>
      Text.endsWith Sheet.extension (f.parts.getLast?.getD "")).mergeSort
        fun a b => Path.partsBefore a.parts b.parts).map fun f => p.under ⟨"", f.parts⟩
  else []

variable {tree : FileTree} {p : Path} {text : String}

theorem exists_bytes_of_text? (h : tree.text? p = some text) :
    ∃ bytes decoded, tree.readBytes p = .ok bytes ∧ Text.decodeUtf8 bytes = .ok decoded
      ∧ text = Text.unifyLineEnds decoded := by
  rw [text?] at h
  split at h
  · cases h
  · next bytes hbytes =>
    split at h
    · cases h
    · next decoded hdecoded => exact ⟨bytes, decoded, hbytes, hdecoded, (Option.some.inj h).symm⟩

/-- What has a text is a file. -/
theorem isFile_of_text? (h : tree.text? p = some text) : tree.isFile p = true := by
  obtain ⟨bytes, -, hbytes, -⟩ := exists_bytes_of_text? h
  rw [readBytes] at hbytes
  rw [isFile]
  split at hbytes
  · next hfind => rw [hfind]
  · cases hbytes
  · cases hbytes

end FileTree

namespace Sheet

open FileTree (text? sheetPaths)

/-! ### Loading files -/

/-- The sheets that were read are those of files as they are now. -/
def AreCurrent (tree : FileTree) (sheets : ReadSheets) : Prop :=
  ∀ p sheet, sheets.lookup p = some sheet → ∃ text, tree.text? p = some text ∧ sheet = read text

variable {tree : FileTree} {sheets : ReadSheets} {p : Path} {text : String}

theorem areCurrent_nil (tree : FileTree) : AreCurrent tree [] := by
  intro p sheet h
  cases h

theorem AreCurrent.cons (h : AreCurrent tree sheets) (htext : tree.text? p = some text) :
    AreCurrent tree ((p, read text) :: sheets) := by
  intro q sheet hq
  by_cases hqp : q = p
  · subst hqp
    rw [List.lookup_cons_self] at hq
    exact ⟨text, htext, (Option.some.inj hq).symm⟩
  · have hne : (q == p) = false := beq_eq_false_iff_ne.2 hqp
    rw [List.lookup_cons, hne] at hq
    exact h q sheet hq

/-- Loading gives something, however many sheets of the tree have been read before. -/
def Loads (tree : FileTree) {β : Type} (w : Work ReadSheets (StateM FileTree) β) (b : β) : Prop :=
  ∀ sheets, AreCurrent tree sheets →
    ∃ sheets', AreCurrent tree sheets' ∧ w.Gives tree sheets b sheets'

theorem loads_of_gives {β : Type} {w : Work ReadSheets (StateM FileTree) β} {b : β}
    (h : ∀ sheets, w.Gives tree sheets b sheets) : Loads tree w b :=
  fun sheets hsheets => ⟨sheets, hsheets, h sheets⟩

theorem Loads.bind {β γ : Type} {w : Work ReadSheets (StateM FileTree) β}
    {f : β → Work ReadSheets (StateM FileTree) γ} {b : β} {c : γ} (hw : Loads tree w b)
    (hf : Loads tree (f b) c) : Loads tree (w >>= f) c := by
  intro sheets hsheets
  obtain ⟨between, hbetween, hw⟩ := hw sheets hsheets
  obtain ⟨after, hafter, hf⟩ := hf between hbetween
  exact ⟨after, hafter, hw.bind hf⟩

/-- A file is loaded as the sheet of its text, whether it was read before or not. -/
theorem loads_loadFile (h : tree.text? p = some text) : Loads tree (loadFile p) (read text) := by
  intro sheets hsheets
  cases hlook : sheets.lookup p with
  | some sheet =>
    obtain ⟨text', htext', rfl⟩ := hsheets p sheet hlook
    obtain rfl : text' = text := Option.some.inj (htext'.symm.trans h)
    refine ⟨sheets, hsheets, Work.gives_get.bind ?_⟩
    rw [hlook]
    exact Work.gives_pure _
  | none =>
    obtain ⟨bytes, decoded, hbytes, hdecoded, rfl⟩ := FileTree.exists_bytes_of_text? h
    have hfile : (FileAccess.isFile p : StateM FileTree Bool) tree = (true, tree) :=
      congrArg (·, tree) (FileTree.isFile_of_text? h)
    have hread : (FileAccess.readBytes p : StateM FileTree (Except Fault (List UInt8))) tree
        = (.ok bytes, tree) := congrArg (·, tree) hbytes
    refine ⟨_, hsheets.cons h, Work.gives_get.bind ?_⟩
    rw [hlook]
    refine (Work.gives_lift hfile).bind ?_
    simp only [Bool.not_true, Bool.false_eq_true, if_false]
    refine (Work.gives_liftExcept hread).bind ?_
    rw [hdecoded]
    exact (Work.gives_say _).bind ((Work.gives_modify _).bind (Work.gives_pure _))

/-- Files are loaded as the sheets of their texts. -/
theorem loads_loadFiles {ps : List Path} {texts : List String} (sheet : Sheet)
    (h : ps.map tree.text? = texts.map some) :
    Loads tree (loadFiles sheet ps) (overlayTexts sheet texts) := by
  induction ps generalizing sheet texts with
  | nil =>
    obtain rfl := List.map_eq_nil_iff.1 h.symm
    exact loads_of_gives fun _ => Work.gives_pure _
  | cons p ps ih =>
    cases texts with
    | nil => cases h
    | cons text texts =>
      obtain ⟨hp, hps⟩ := List.cons.inj h
      exact (loads_loadFile hp).bind (ih _ hps)

/-- What a path leads to is loaded as the sheets of its texts; where it leads nowhere there are
none. -/
theorem loads_loadPath {texts : List String} (sheet : Sheet)
    (h : (tree.sheetPaths p).map tree.text? = texts.map some) :
    Loads tree (loadPath sheet p) (overlayTexts sheet texts) := by
  have hlook : ∀ {β : Type} {x : StateM FileTree β} {b : β}, x tree = (b, tree) →
      Loads tree (Work.lift x) b := fun hx => loads_of_gives fun _ => Work.gives_lift hx
  rw [sheetPaths] at h
  refine (hlook (b := tree.isFile p) rfl).bind ?_
  split at h
  · next hfile =>
    rw [if_pos hfile]
    exact loads_loadFiles sheet h
  · next hfile =>
    rw [if_neg hfile]
    refine (hlook (b := tree.isDirectory p) rfl).bind ?_
    split at h
    · next hdirectory =>
      rw [if_pos hdirectory]
      refine (hlook rfl).bind ?_
      rw [List.map_map]
      exact loads_loadFiles sheet h
    · next hdirectory =>
      rw [if_neg hdirectory]
      obtain rfl := List.map_eq_nil_iff.1 h.symm
      exact loads_of_gives fun _ => (Work.gives_say _).bind (Work.gives_pure _)

theorem loads_loadPaths {ps : List Path} {texts : List String} (sheet : Sheet)
    (h : (ps.flatMap tree.sheetPaths).map tree.text? = texts.map some) :
    Loads tree (loadPaths sheet ps) (overlayTexts sheet texts) := by
  induction ps generalizing sheet texts with
  | nil =>
    obtain rfl := List.map_eq_nil_iff.1 h.symm
    exact loads_of_gives fun _ => Work.gives_pure _
  | cons p ps ih =>
    rw [List.flatMap_cons, List.map_append] at h
    obtain ⟨here, below, rfl, hhere, hbelow⟩ := List.map_eq_append_iff.1 h.symm
    rw [overlayTexts_append]
    exact (loads_loadPath sheet hhere.symm).bind (ih _ hbelow.symm)

/-- All style sheets are loaded as the resolved sheet of their texts. -/
theorem loads_loadAll {paths : List Path} {texts : List String}
    (h : ((searched paths).flatMap tree.sheetPaths).map tree.text? = texts.map some) :
    Loads tree (loadAll paths) (overlayTexts {} texts).resolve.value :=
  (loads_loadPaths {} h).bind (loads_of_gives fun _ => Work.gives_ofNoted _)

/-- **Style sheets compose.** When a text begins with a header, the sheet of another text and this
one behind it is that of the other with that of the text on top: the names of the other keep their
places, the new names follow, and the styles of the text count. So the sheets of any number of
texts, each of which but the first begins with a header, are together the sheet of the texts one
after the other, and loading all files of a tree that have these texts gives that sheet with
inheritance resolved. -/
theorem sheets_compose :
    (∀ a b : String, BeginsWithHeader b →
      read (a ++ "\n" ++ b) = (read a).overlay (read b)
        ∧ (read (a ++ "\n" ++ b)).keys
          = (read a).keys ++ (read b).keys.filter (fun name => name ∉ (read a).keys)
        ∧ ∀ name, (read (a ++ "\n" ++ b)).get? name
          = ((read b).get? name).or ((read a).get? name))
      ∧ (∀ texts : List String, (∀ b ∈ texts.tail, BeginsWithHeader b) →
        overlayTexts {} texts = read (Text.join "\n" texts))
      ∧ ∀ (tree : FileTree) (sheets : ReadSheets) (paths : List Path) (texts : List String),
        AreCurrent tree sheets →
        ((searched paths).flatMap tree.sheetPaths).map tree.text? = texts.map some →
        (∀ b ∈ texts.tail, BeginsWithHeader b) →
        ∃ sheets' notices,
          (loadAll paths : Work ReadSheets (StateM FileTree) Sheet).complete sheets tree
            = ((⟨.ok (read (Text.join "\n" texts)).resolve.value, notices⟩, sheets'), tree) := by
  refine ⟨fun a b hb => ?_, fun texts h => overlayTexts_eq h, ?_⟩
  · rw [read_append a hb]
    exact ⟨rfl, Ledger.keys_overlay _ _, Ledger.get?_overlay _ _⟩
  · intro tree sheets paths texts hsheets htexts hheaders
    obtain ⟨sheets', -, hgives⟩ := loads_loadAll htexts sheets hsheets
    obtain ⟨notices, hrun⟩ := hgives []
    refine ⟨sheets', notices, ?_⟩
    have hcomplete : (loadAll paths : Work ReadSheets (StateM FileTree) Sheet).complete sheets tree
        = (match (loadAll paths : Work ReadSheets (StateM FileTree) Sheet) sheets [] tree with
          | (((r, s), notices), tree) => ((⟨r, notices⟩, s), tree)) := rfl
    rw [hcomplete, hrun, overlayTexts_eq hheaders]

/-- A style sheet that ends inside a widget that is passed over, inside a state. -/
def baseText : String :=
  "Base\n  color: red\n  $hover\n    opacity: 1\n    Label\n      id: title\n"

/-- A style sheet with a comment, a style and another form of the style of the first sheet. -/
def childText : String := "// children\nChild < Base\n  size: 10 10\nBase\n  color: green\n"

/-- A directory with the two sheets, one in a directory of its own. -/
def sheetFolder : FileTree where
  nodes := [(["styles"], .directory),
    (["styles", "base.otui"], .file (Text.encodeUtf8 baseText)),
    (["styles", "widgets"], .directory),
    (["styles", "widgets", "child.otui"], .file (Text.encodeUtf8 childText))]

theorem sheetPaths_sheetFolder :
    sheetFolder.sheetPaths ⟨"", ["styles"]⟩
      = [⟨"", ["styles", "base.otui"]⟩, ⟨"", ["styles", "widgets", "child.otui"]⟩] := by
  have hfound : ((sheetFolder.below ⟨"", ["styles"]⟩).filter fun f =>
      Text.endsWith extension (f.parts.getLast?.getD ""))
      = [⟨["base.otui"], true⟩, ⟨["widgets", "child.otui"], true⟩] := by decide +kernel
  have hsorted : ([⟨["base.otui"], true⟩, ⟨["widgets", "child.otui"], true⟩] :
      List FoundFile).Pairwise fun a b => Path.partsBefore a.parts b.parts = true := by
    decide +kernel
  have hfile : sheetFolder.isFile ⟨"", ["styles"]⟩ = false := by decide +kernel
  have hdirectory : sheetFolder.isDirectory ⟨"", ["styles"]⟩ = true := by decide +kernel
  rw [sheetPaths, hfile, hdirectory, hfound, List.mergeSort_of_pairwise hsorted]
  rfl

theorem sheets_compose_folder :
    BeginsWithHeader childText
      ∧ read (baseText ++ "\n" ++ childText) = (read baseText).overlay (read childText)
      ∧ ((searched [⟨"", ["styles"]⟩]).flatMap sheetFolder.sheetPaths).map sheetFolder.text?
        = [baseText, childText].map some
      ∧ ∃ sheets notices,
        (loadAll [⟨"", ["styles"]⟩] : Work ReadSheets (StateM FileTree) Sheet).complete []
            sheetFolder
          = ((⟨.ok (read (Text.join "\n" [baseText, childText])).resolve.value, notices⟩, sheets),
            sheetFolder) := by
  have hchild : BeginsWithHeader childText := by decide +kernel
  have htexts : ((searched [⟨"", ["styles"]⟩]).flatMap sheetFolder.sheetPaths).map sheetFolder.text?
      = [baseText, childText].map some := by
    rw [searched, if_neg (by decide), List.flatMap_singleton, sheetPaths_sheetFolder]
    decide +kernel
  obtain ⟨happend, -, hload⟩ := sheets_compose
  exact ⟨hchild, (happend baseText childText hchild).1, htexts,
    hload sheetFolder [] _ _ (areCurrent_nil _) htexts (by simpa using hchild)⟩

end Sheet

end Otui
