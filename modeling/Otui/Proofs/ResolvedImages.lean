import Otui.Image.Library
import Otui.Proofs.IndexedImages
import Otui.Proofs.LoadedSheets

/-!
# Images that references lead to

A reference leads to an image that is indexed under one of its exact keys (`exactKeys`), the first
of these that is indexed. Only when none of them is does it lead to an image that looks like it, and
then to the first one in the order of the directories and of the paths below them. So it is for
every library that has searched its directories (`answers_refresh`).

The exact keys are the reference itself, the reference without its extension, and that with `.png`.
The other extensions are not tried: an image with one of them is only one of those that look like
the reference, and another may come before it (`lookalike_before_exact`).
-/

namespace Otui

/-! ### Files that are there -/

namespace FileTree

/-- Everything in a tree is where it is listed, with directories on the way to it. -/
def IsConsistent (tree : FileTree) : Prop :=
  ∀ e ∈ tree.nodes, tree.at? e.1 = some e.2 ∧ ".." ∉ e.1
    ∧ ∀ n < e.1.length, tree.at? (e.1.take n) = some .directory

instance (tree : FileTree) : Decidable tree.IsConsistent :=
  inferInstanceAs (Decidable (∀ e ∈ tree.nodes, tree.at? e.1 = some e.2 ∧ ".." ∉ e.1
    ∧ ∀ n < e.1.length, tree.at? (e.1.take n) = some .directory))

variable {tree : FileTree}

/-- Walking along names is walking along the first of them and then along the others. -/
theorem walk_append (tree : FileTree) (place names more : List String) :
    tree.walk place (names ++ more)
      = (tree.walk place names).bind fun place => tree.walk place more := by
  induction names generalizing place with
  | nil => rfl
  | cons name names ih =>
    rw [List.cons_append, walk, walk]
    split
    · rfl
    · split
      · exact ih _
      · split
        · rfl
        · exact ih _
    · rfl

/-- From a place on the way to something in a tree one can walk on to it. -/
theorem IsConsistent.walk_eq (h : tree.IsConsistent) {e : List String × FileNode}
    (he : e ∈ tree.nodes) {place names : List String} (hnames : e.1 = place ++ names) :
    tree.walk place names = .ok e.1 := by
  obtain ⟨-, hparent, hway⟩ := h e he
  induction names generalizing place with
  | nil =>
    rw [hnames, List.append_nil]
    rfl
  | cons name names ih =>
    have hplace : tree.at? place = some .directory := by
      have htake := hway place.length (by simp [hnames])
      rwa [hnames, List.take_left] at htake
    have hname : (name != "..") = true := by
      rw [bne_iff_ne]
      rintro rfl
      exact hparent (by simp [hnames])
    rw [walk, hplace]
    simp only [hname, if_true]
    exact ih (by rw [hnames, List.append_assoc, List.singleton_append])

/-- What is below a directory is listed behind the place of the directory. -/
theorem exists_of_mem_below {p : Path} {f : FoundFile} (h : f ∈ tree.below p) :
    ∃ place, tree.locate p = .ok place ∧ ∃ e ∈ tree.nodes,
      e.1 = place ++ f.parts ∧ f.isFile = (e.2 != .directory) := by
  rw [below] at h
  split at h
  · cases h
  · next place hplace =>
    obtain ⟨⟨other, node⟩, he, hfound⟩ := List.mem_filterMap.1 h
    simp only [Option.ite_none_right_eq_some, Bool.and_eq_true, List.isPrefixOf_iff_prefix,
      Option.some.injEq] at hfound
    obtain ⟨⟨⟨names, hnames⟩, -⟩, rfl⟩ := hfound
    refine ⟨place, hplace, (other, node), he, ?_, rfl⟩
    rw [← hnames, List.drop_left]

/-- A path below a directory is walked from the place of the directory. -/
theorem locate_under {directory : Path} {place : List String}
    (h : tree.locate directory = .ok place) (names : List String) :
    tree.locate (directory.under ⟨"", names⟩) = tree.walk place names := by
  have hunder : directory.under ⟨"", names⟩ = ⟨directory.root, directory.parts ++ names⟩ := rfl
  rw [locate] at h
  split at h
  · cases h
  · next hroot =>
    have hroot' : ¬ (directory.under ⟨"", names⟩).isAbsolute = true := hroot
    rw [locate, if_neg hroot', hunder, walk_append, h]
    rfl

/-- An image of a consistent tree is a file that is there. -/
theorem isFile_of_hasImage {directory : Path} {wanted : String → Prop} {f : FoundFile}
    (h : tree.IsConsistent) (hf : tree.HasImage directory wanted f) :
    tree.isFile (directory.under ⟨"", f.parts⟩) = true := by
  obtain ⟨place, hplace, e, he, hparts, hfile⟩ := exists_of_mem_below hf.mem
  have hfind : tree.find (directory.under ⟨"", f.parts⟩) = .ok e.2 := by
    rw [find, locate_under hplace, h.walk_eq he hparts, Except.bind, (h e he).1]
  have himage := hf.isImage
  rw [ImageIndex.isImage, Bool.and_eq_true, hfile, bne_iff_ne] at himage
  rw [isFile, hfind]
  cases hnode : e.2 with
  | directory => exact absurd hnode himage.1
  | file bytes => rfl

end FileTree

namespace ImageIndex

open Text
open FileTree (IsFirstImage)

/-! ### Looking up -/

/-- The keys that a normalized reference is looked up by, one after the other. -/
def exactKeys (n : String) : List String := n :: withoutExtension n :: (withPng? n).toList

/-- A reference leads to what its first exact key has, else to the first image that looks like
it. -/
theorem resolveNormalized?_eq (index : ImageIndex) (n : String) :
    resolveNormalized? index n
      = ((exactKeys n).findSome? index.get?).or (first? index (resembles n)) := by
  have hpng : (withPng? n).toList.findSome? index.get? = (withPng? n).bind index.get? := by
    cases withPng? n with
    | none => rfl
    | some key => exact List.findSome?_singleton
  rw [resolveNormalized?, exactKeys, List.findSome?_cons, List.findSome?_cons, hpng]
  cases index.get? n with
  | some p => rfl
  | none =>
    cases index.get? (withoutExtension n) with
    | some p => rfl
    | none => cases (withPng? n).bind index.get? <;> rfl

/-- No extension of an image file ends in another one. -/
theorem eq_of_endsWith {n e other : String} (he : e ∈ extensions) (hother : other ∈ extensions)
    (h : endsWith other (n ++ e) = true) : other = e := by
  have happart : ∀ e ∈ extensions, ∀ other ∈ extensions,
      e.toList.isSuffixOf other.toList = true → e = other := by decide
  have hother' : other.toList <:+ n.toList ++ e.toList := by
    rw [← String.toList_append]
    exact List.isSuffixOf_iff_suffix.1 h
  have he' : e.toList <:+ n.toList ++ e.toList := List.suffix_append _ _
  rcases List.suffix_or_suffix_of_suffix he' hother' with h | h
  · exact (happart e he other hother (List.isSuffixOf_iff_suffix.2 h)).symm
  · exact happart other hother e he (List.isSuffixOf_iff_suffix.2 h)

theorem withoutExtension_append {n e : String} (he : e ∈ extensions) :
    withoutExtension (n ++ e) = n := by
  have hends : endsWith e (n ++ e) = true := by
    rw [endsWith, List.isSuffixOf_iff_suffix, String.toList_append]
    exact List.suffix_append _ _
  have hfind : extensions.find? (fun other => endsWith other (n ++ e)) = some e := by
    obtain ⟨other, hother⟩ := Option.isSome_iff_exists.1
      (List.find?_isSome (p := fun other => endsWith other (n ++ e)) |>.2 ⟨e, he, hends⟩)
    have hsame := eq_of_endsWith he (List.mem_of_find?_eq_some hother)
      (List.find?_eq_some_iff_append.1 hother).1
    rw [hother, hsame]
  rw [withoutExtension, hfind]
  simp [dropTail, String.toList_append]

/-- A reference looks like all images that have it up to an extension. -/
theorem resembles_append {n e : String} (hn : ¬ HasExtension n) (he : e ∈ extensions) :
    resembles n (n ++ e) = true := by
  have hself : endsWith n n = true := List.isSuffixOf_iff_suffix.2 List.suffix_rfl
  rw [resembles, withoutExtension_append he, withoutExtension_eq_self hn, hself, Bool.or_true]

/-! ### Answers -/

/-- What a normalized reference leads to among the images of a file tree below directories. -/
structure Answers (tree : FileTree) (directories : List Path) (n : String) (answer : Option Path) :
    Prop where
  /-- An answer is the image that is indexed under a key: an exact one, or one that looks like the
  reference. -/
  indexed : ∀ p, answer = some p → ∃ key, tree.IsFirstImage directories (· = key) p
    ∧ (key ∈ exactKeys n ∨ resembles n key = true)
  /-- It is a file that is there. -/
  isFile : tree.IsConsistent → ∀ p, answer = some p → tree.isFile p = true
  /-- What is indexed under the reference itself comes before all else. -/
  itself : ∀ p, tree.IsFirstImage directories (· = n) p → answer = some p
  /-- For a reference without an extension, what is indexed under it with `.png` is next. -/
  withPng : n ≠ "" → ¬ HasExtension n →
    ∀ p, tree.IsFirstImage directories (· = n ++ ".png") p → answer = some p
  /-- In any case it is what is indexed under the first exact key that is. -/
  exact : n ≠ "" → ∀ earlier key later p, exactKeys n = earlier ++ key :: later →
    (∀ k ∈ earlier, ∀ q, ¬ tree.IsFirstImage directories (· = k) q) →
    tree.IsFirstImage directories (· = key) p → answer = some p
  /-- When no exact key is indexed, it is the first image that looks like the reference. -/
  alike : n ≠ "" → (∀ key ∈ exactKeys n, ∀ q, ¬ tree.IsFirstImage directories (· = key) q) →
    ∀ p, answer = some p ↔ tree.IsFirstImage directories (resembles n · = true) p
  /-- A reference without an extension leads somewhere when it is indexed with some extension. -/
  found : n ≠ "" → ¬ HasExtension n → ∀ e ∈ extensions, ∀ p,
    tree.IsFirstImage directories (· = n ++ e) p → answer.isSome = true
  /-- The empty reference leads nowhere. -/
  empty : n = "" → answer = none

variable {tree : FileTree} {directories : List Path}

/-- Only references with an extension are indexed. -/
theorem hasExtension_of_isFirstImage {key : String} {p : Path}
    (h : tree.IsFirstImage directories (· = key) p) : HasExtension key := by
  obtain ⟨_, _, _, _, _, f, hf, _⟩ := h
  rw [← hf.wanted]
  exact hasExtension_referenceOf hf.isImage

/-- What stands first among the images is a file that is there, if the tree is consistent. -/
theorem isFile_of_isFirstImage {wanted : String → Prop} {p : Path} (hc : tree.IsConsistent)
    (h : tree.IsFirstImage directories wanted p) : tree.isFile p = true := by
  obtain ⟨_, _, _, _, _, f, hf, rfl, _⟩ := h
  exact FileTree.isFile_of_hasImage hc hf

theorem get?_ofTree_eq_none {key : String}
    (h : ∀ q, ¬ tree.IsFirstImage directories (· = key) q) :
    (ofTree tree directories).get? key = none :=
  Option.eq_none_iff_forall_ne_some.2 fun q hq => h q (get?_ofTree.1 hq)

/-- The image of the first reference of some kind is that of a reference. -/
theorem exists_key_of_first? {index : ImageIndex} {wanted : String → Bool} {p : Path}
    (h : index.first? wanted = some p) : ∃ key, wanted key = true ∧ index.get? key = some p := by
  obtain ⟨e, he, rfl⟩ := Option.map_eq_some_iff.1 h
  exact ⟨e.1, (List.find?_eq_some_iff_append.1 he).1,
    Ledger.get?_eq_some_iff.2 (List.mem_of_find?_eq_some he)⟩

section resolve

variable {reference : String}

theorem resolve?_eq_none {index : ImageIndex} (hn : normalize reference = "") :
    resolve? index reference = none := by
  simp only [resolve?, hn, beq_self_eq_true, if_true]

theorem resolve?_eq {index : ImageIndex} (hn : normalize reference ≠ "") :
    resolve? index reference
      = ((exactKeys (normalize reference)).findSome? index.get?).or
        (index.first? (resembles (normalize reference))) := by
  rw [← resolveNormalized?_eq]
  simp only [resolve?, beq_iff_eq, hn, if_false]

/-- A reference leads to what the first of its exact keys that is indexed has. -/
theorem resolve?_of_exact (hn : normalize reference ≠ "") {earlier later : List String}
    {key : String} {p : Path} (hkeys : exactKeys (normalize reference) = earlier ++ key :: later)
    (hearlier : ∀ k ∈ earlier, ∀ q, ¬ tree.IsFirstImage directories (· = k) q)
    (h : tree.IsFirstImage directories (· = key) p) :
    resolve? (ofTree tree directories) reference = some p := by
  have hfind :
      (exactKeys (normalize reference)).findSome? (ofTree tree directories).get? = some p :=
    List.findSome?_eq_some_iff.2 ⟨earlier, key, later, hkeys, get?_ofTree.2 h,
      fun k hk => get?_ofTree_eq_none (hearlier k hk)⟩
  rw [resolve?_eq hn, hfind, Option.some_or]

/-- Without an exact key that is indexed, it leads to the first image that looks like it. -/
theorem resolve?_of_alike (hn : normalize reference ≠ "")
    (h : ∀ key ∈ exactKeys (normalize reference), ∀ q,
      ¬ tree.IsFirstImage directories (· = key) q) :
    resolve? (ofTree tree directories) reference
      = (ofTree tree directories).first? (resembles (normalize reference)) := by
  have hfind : (exactKeys (normalize reference)).findSome? (ofTree tree directories).get? = none :=
    List.findSome?_eq_none_iff.2 fun key hkey => get?_ofTree_eq_none (h key hkey)
  rw [resolve?_eq hn, hfind, Option.none_or]

/-- A reference leads only to what is indexed. -/
theorem exists_key_of_resolve? {p : Path}
    (h : resolve? (ofTree tree directories) reference = some p) :
    ∃ key, tree.IsFirstImage directories (· = key) p
      ∧ (key ∈ exactKeys (normalize reference)
        ∨ resembles (normalize reference) key = true) := by
  have hn : normalize reference ≠ "" := fun hn => by
    rw [resolve?_eq_none hn] at h
    cases h
  rw [resolve?_eq hn, Option.or_eq_some_iff] at h
  rcases h with h | ⟨-, h⟩
  · obtain ⟨earlier, key, later, hkeys, hkey, -⟩ := List.findSome?_eq_some_iff.1 h
    have hmem : key ∈ exactKeys (normalize reference) := by
      rw [hkeys]
      exact List.mem_append_right _ List.mem_cons_self
    exact ⟨key, get?_ofTree.1 hkey, .inl hmem⟩
  · obtain ⟨key, hresembles, hkey⟩ := exists_key_of_first? h
    exact ⟨key, get?_ofTree.1 hkey, .inr hresembles⟩

/-- A reference leads somewhere when something is indexed that looks like it. -/
theorem isSome_resolve? (hn : normalize reference ≠ "") {key : String} {p : Path}
    (hkey : resembles (normalize reference) key = true)
    (h : tree.IsFirstImage directories (· = key) p) :
    (resolve? (ofTree tree directories) reference).isSome = true := by
  have hmem := Ledger.get?_eq_some_iff.1 (get?_ofTree.2 h)
  rw [resolve?_eq hn, Option.isSome_or, Bool.or_eq_true, first?, Option.isSome_map,
    List.find?_isSome]
  exact .inr ⟨_, hmem, hkey⟩

end resolve

/-- The exact keys of a reference without an extension: nothing but the one with `.png` is
indexed. -/
theorem exactKeys_of_not_hasExtension {n : String} (h : ¬ HasExtension n) :
    exactKeys n = [n, n] ++ [n ++ ".png"]
      ∧ ∀ k ∈ [n, n], ∀ q, ¬ tree.IsFirstImage directories (· = k) q := by
  rw [exactKeys, withoutExtension_eq_self h, withPng?_eq h]
  refine ⟨rfl, fun k hk q hq => h ?_⟩
  obtain rfl : k = n := by simpa using hk
  exact hasExtension_of_isFirstImage hq

theorem answers_ofTree (tree : FileTree) (directories : List Path) (reference : String) :
    Answers tree directories (normalize reference)
      (resolve? (ofTree tree directories) reference) where
  indexed _ hp := exists_key_of_resolve? hp
  isFile hc p hp := by
    obtain ⟨key, hkey, -⟩ := exists_key_of_resolve? hp
    exact isFile_of_isFirstImage hc hkey
  itself p hp := by
    have hn := ne_empty_of_hasExtension (hasExtension_of_isFirstImage hp)
    exact resolve?_of_exact hn (List.nil_append _).symm (by simp) hp
  withPng hn hplain p hp := by
    obtain ⟨hkeys, hnone⟩ := exactKeys_of_not_hasExtension hplain
    exact resolve?_of_exact hn hkeys hnone hp
  exact hn _ _ _ _ hkeys hearlier hp := resolve?_of_exact hn hkeys hearlier hp
  alike hn hnone p := by rw [resolve?_of_alike hn hnone, first?_ofTree]
  found hn hplain _ he _ hp := isSome_resolve? hn (resembles_append hplain he) hp
  empty hn := resolve?_eq_none hn

end ImageIndex

/-! ### Libraries -/

namespace ImageLibrary

open FileTree (images imagesBelow)
open ImageIndex (Answers HasExtension extensions isImage normalize ofTree)

variable {tree : FileTree} {σ : Type} {s : σ}

theorem gives_search {directory : Path} (h : tree.isDirectory directory = true) :
    (Work.lift (FileAccess.search directory isImage) :
        Work σ (StateM FileTree) (List (Path × FoundFile))).Gives tree s
      ((tree.images directory).map fun f => (directory.under ⟨"", f.parts⟩, f)) s := by
  refine Work.gives_lift ?_
  rw [images, if_pos h]
  rfl

/-- What is found below directories are the images that are there. -/
theorem gives_find (tree : FileTree) (s : σ) (directories : List Path) :
    ∃ found, found.flatten = tree.imagesBelow directories
      ∧ (find directories : Work σ (StateM FileTree) _).Gives tree s found s := by
  induction directories with
  | nil => exact ⟨[], rfl, Work.gives_pure _⟩
  | cons d ds ih =>
    obtain ⟨rest, hrest, hgives⟩ := ih
    have hlook : (Work.lift (FileAccess.isDirectory d) : Work σ (StateM FileTree) Bool).Gives tree s
        (tree.isDirectory d) s := Work.gives_lift rfl
    by_cases hd : tree.isDirectory d = true
    · refine ⟨(tree.images d).map (fun f => (d.under ⟨"", f.parts⟩, f)) :: rest, ?_,
        hlook.bind ?_⟩
      · rw [List.flatten_cons, hrest]
        rfl
      · rw [if_pos hd]
        exact (gives_search hd).bind (hgives.bind (Work.gives_pure _))
    · refine ⟨rest, ?_, hlook.bind ?_⟩
      · rw [hrest, imagesBelow, imagesBelow, List.flatMap_cons, images, if_neg hd]
        rfl
      · rw [if_neg hd]
        exact (Work.gives_say _).bind hgives

/-- A library that searches its directories has the index of the images that are there. -/
theorem gives_refresh (tree : FileTree) (library : ImageLibrary) :
    (refresh : Work ImageLibrary (StateM FileTree) Unit).Gives tree library ()
      { library with index := ofTree tree library.directories, sizes := [] } := by
  obtain ⟨found, hfound, hgives⟩ := gives_find tree library library.directories
  have hindex : ImageIndex.ofFound found = ofTree tree library.directories := by
    rw [ofTree, ← hfound]
    exact List.foldl_flatten.symm
  refine Work.gives_get.bind (hgives.bind ((Work.gives_say _).bind ?_))
  rw [hindex]
  exact fun notices => ⟨notices, rfl⟩

/-- **Exact images come first.** A library that searches its directories has in its index what is
first under each key: from the earliest directory that has an image with this key, and there the
first one in the order of paths. Every reference leads to nothing or to an image that is indexed, by
the rules of `Answers`: to the image of the first of its exact keys that is indexed, and only when
none of them is to an image that looks like the reference. -/
theorem answers_refresh (tree : FileTree) (library : ImageLibrary) :
    ∃ notices refreshed,
      (refresh : Work ImageLibrary (StateM FileTree) Unit).complete library tree
        = ((⟨.ok (), notices⟩, refreshed), tree)
      ∧ (∀ key p, refreshed.index.get? key = some p
        ↔ tree.IsFirstImage library.directories (· = key) p)
      ∧ ∀ reference, Answers tree library.directories (normalize reference)
        (refreshed.resolve? reference) := by
  obtain ⟨notices, hrun⟩ := (gives_refresh tree library).complete
  exact ⟨notices, _, hrun, fun key p => ImageIndex.get?_ofTree,
    fun reference => ImageIndex.answers_ofTree tree library.directories reference⟩

/-- Three directories: an image that looks like `ui/button`, two images with this reference, and
one more. -/
def buttons : FileTree where
  nodes := [(["skin"], .directory),
    (["skin", "a"], .directory),
    (["skin", "a", "ui"], .directory),
    (["skin", "a", "ui", "button.png"], .file (ImageHeader.pngHeader 1 1)),
    (["data"], .directory),
    (["data", "UI"], .directory),
    (["data", "UI", "Button.PNG"], .file (ImageHeader.pngHeader 2 2)),
    (["data", "ui"], .directory),
    (["data", "ui", "button.png"], .file (ImageHeader.pngHeader 3 3)),
    (["more"], .directory),
    (["more", "ui"], .directory),
    (["more", "ui", "button.png"], .file (ImageHeader.pngHeader 4 4))]

/-- The directories in the order in which they are searched. -/
def buttonDirectories : List Path := [⟨"", ["skin"]⟩, ⟨"", ["data"]⟩, ⟨"", ["more"]⟩]

theorem isFirstImage_buttons :
    buttons.IsFirstImage buttonDirectories (· = normalize "/UI/button" ++ ".png")
      ⟨"", ["data", "UI", "Button.PNG"]⟩ := by
  refine ImageIndex.get?_ofTree.1 ?_
  rw [ofTree, imagesBelow, buttonDirectories, List.flatMap_cons, List.flatMap_cons,
    List.flatMap_singleton]
  iterate 3 rw [FileTree.images_of_pairwise (by decide +kernel) (by decide +kernel)]
  decide +kernel

theorem answers_refresh_buttons :
    buttons.IsConsistent ∧ normalize "/UI/button" ≠ "" ∧ ¬ HasExtension (normalize "/UI/button")
      ∧ buttons.IsFirstImage buttonDirectories (· = normalize "/UI/button" ++ ".png")
        ⟨"", ["data", "UI", "Button.PNG"]⟩
      ∧ ∃ notices refreshed,
        (refresh : Work ImageLibrary (StateM FileTree) Unit).complete
            { directories := buttonDirectories } buttons
          = ((⟨.ok (), notices⟩, refreshed), buttons)
        ∧ refreshed.resolve? "/UI/button" = some ⟨"", ["data", "UI", "Button.PNG"]⟩
        ∧ buttons.isFile ⟨"", ["data", "UI", "Button.PNG"]⟩ = true := by
  have hconsistent : buttons.IsConsistent := by decide +kernel
  have hne : normalize "/UI/button" ≠ "" := by decide +kernel
  have hplain : ¬ HasExtension (normalize "/UI/button") := by decide +kernel
  obtain ⟨notices, refreshed, hrun, -, hanswers⟩ :=
    answers_refresh buttons { directories := buttonDirectories }
  have hanswer := (hanswers "/UI/button").withPng hne hplain _ isFirstImage_buttons
  exact ⟨hconsistent, hne, hplain, isFirstImage_buttons, notices, refreshed, hrun, hanswer,
    (hanswers "/UI/button").isFile hconsistent _ hanswer⟩

/-! ### Exact images that are not tried -/

/-- A directory with an image that looks like `ui/icon`, before the image with this reference, and
an image with two extensions. -/
def lookalikes : FileTree where
  nodes := [(["data"], .directory),
    (["data", "a"], .directory),
    (["data", "a", "ui"], .directory),
    (["data", "a", "ui", "icon.png"], .file (ImageHeader.pngHeader 1 1)),
    (["data", "photo.jpg.png"], .file (ImageHeader.pngHeader 1 1)),
    (["data", "ui"], .directory),
    (["data", "ui", "icon.jpg"], .file (ImageHeader.pngHeader 2 2))]

theorem imagesBelow_lookalikes :
    lookalikes.imagesBelow [⟨"", ["data"]⟩]
      = [(⟨"", ["data", "a", "ui", "icon.png"]⟩, ⟨["a", "ui", "icon.png"], true⟩),
        (⟨"", ["data", "photo.jpg.png"]⟩, ⟨["photo.jpg.png"], true⟩),
        (⟨"", ["data", "ui", "icon.jpg"]⟩, ⟨["ui", "icon.jpg"], true⟩)] := by
  rw [imagesBelow, List.flatMap_singleton,
    FileTree.images_of_pairwise (by decide +kernel) (by decide +kernel)]
  decide +kernel

/-- An image that is indexed under a reference with an extension behind it may be passed over: for
one that looks like the reference, when the extension is not `.png`; and when the reference has an
extension of its own, which is left out before another one is tried. -/
theorem lookalike_before_exact :
    ∃ notices refreshed,
      (refresh : Work ImageLibrary (StateM FileTree) Unit).complete
          { directories := [⟨"", ["data"]⟩] } lookalikes
        = ((⟨.ok (), notices⟩, refreshed), lookalikes)
      ∧ lookalikes.IsFirstImage [⟨"", ["data"]⟩] (· = normalize "ui/icon" ++ ".jpg")
        ⟨"", ["data", "ui", "icon.jpg"]⟩
      ∧ refreshed.resolve? "ui/icon" = some ⟨"", ["data", "a", "ui", "icon.png"]⟩
      ∧ (∀ e ∈ "" :: extensions, ¬ lookalikes.IsFirstImage [⟨"", ["data"]⟩]
        (· = normalize "ui/icon" ++ e) ⟨"", ["data", "a", "ui", "icon.png"]⟩)
      ∧ lookalikes.IsFirstImage [⟨"", ["data"]⟩] (· = normalize "photo.jpg" ++ ".png")
        ⟨"", ["data", "photo.jpg.png"]⟩
      ∧ refreshed.resolve? "photo.jpg" = none := by
  obtain ⟨notices, hrun⟩ := (gives_refresh lookalikes { directories := [⟨"", ["data"]⟩] }).complete
  refine ⟨notices, _, hrun, ImageIndex.get?_ofTree.1 ?_, ?_, ?_, ImageIndex.get?_ofTree.1 ?_, ?_⟩
  · rw [ofTree, imagesBelow_lookalikes]
    decide +kernel
  · rw [resolve?, ofTree, imagesBelow_lookalikes]
    decide +kernel
  · simp only [← ImageIndex.get?_ofTree]
    rw [ofTree, imagesBelow_lookalikes]
    decide +kernel
  · rw [ofTree, imagesBelow_lookalikes]
    decide +kernel
  · rw [resolve?, ofTree, imagesBelow_lookalikes]
    decide +kernel

end ImageLibrary

end Otui
