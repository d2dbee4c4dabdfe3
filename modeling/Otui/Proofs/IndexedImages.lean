import Otui.Files.Tree
import Otui.Image.Index
import Otui.Proofs.Recording

/-!
# Images that are indexed

The index of images has one path for each reference: that of the first image with the reference,
directory by directory and in the order of paths (`FileTree.IsFirstImage`). The same holds of any
other way to pick a reference (`first?_ofTree`), so that whatever is looked up in the index can be
said of the file tree alone.

Every reference in the index ends in the extension of an image file, in small letters
(`hasExtension_referenceOf`), however the file spells it.
-/

namespace Otui

/-! ### The order of paths -/

namespace Path

/-- Paths stand in the lexical order of their parts. -/
theorem partsBefore_iff {as bs : List String} : partsBefore as bs = true ↔ ¬ bs < as := by
  induction as generalizing bs with
  | nil => exact iff_of_true rfl (List.not_lt_nil bs)
  | cons a as ih =>
    cases bs with
    | nil => exact iff_of_false Bool.false_ne_true (by simp)
    | cons b bs =>
      rw [partsBefore, List.cons_lt_cons_iff]
      by_cases hab : a = b
      · subst hab
        simp [ih]
      · have hlt : a < b ↔ ¬ b < a :=
          ⟨String.lt_asymm, fun h => String.not_le.1 fun hle =>
            hab (String.le_antisymm (String.not_lt.1 h) hle)⟩
        simp [hab, Ne.symm hab, hlt]

variable {as bs cs : List String}

theorem partsBefore_refl (as : List String) : partsBefore as as = true :=
  partsBefore_iff.2 (List.lt_irrefl as)

theorem partsBefore_trans (h : partsBefore as bs = true) (h' : partsBefore bs cs = true) :
    partsBefore as cs = true := by
  rw [partsBefore_iff, List.not_lt] at h h' ⊢
  exact List.le_trans h h'

theorem partsBefore_total (as bs : List String) :
    (partsBefore as bs || partsBefore bs as) = true := by
  rw [Bool.or_eq_true, partsBefore_iff, partsBefore_iff, List.not_lt, List.not_lt]
  exact List.le_total as bs

theorem partsBefore_antisymm (h : partsBefore as bs = true) (h' : partsBefore bs as = true) :
    as = bs := by
  rw [partsBefore_iff, List.not_lt] at h h'
  exact List.le_antisymm h h'

end Path

/-! ### Ends of texts -/

namespace Text

/-- The end of a text is brought to lower case after the front. -/
theorem suffix_lowerFrom (before cs ds : List Char) :
    lowerFrom (cs.reverse ++ before) ds <:+ lowerFrom before (cs ++ ds) := by
  induction cs generalizing before with
  | nil => exact List.suffix_rfl
  | cons c cs ih =>
    have hrest := ih (c :: before)
    rw [List.cons_append, lowerFrom, List.reverse_cons, List.append_assoc]
    exact hrest.trans (List.suffix_append _ _)

/-- Only a capital sigma looks back. -/
theorem lowerFrom_eq {ds : List Char} (h : ∀ c ∈ ds, c.toNat ≠ 0x3A3) (before other : List Char) :
    lowerFrom before ds = lowerFrom other ds := by
  induction ds generalizing before other with
  | nil => rfl
  | cons d ds ih =>
    obtain ⟨hd, hds⟩ := List.forall_mem_cons.1 h
    rw [lowerFrom, lowerFrom, ih hds (d :: before) (d :: other), lowerAt, lowerAt, if_neg hd,
      if_neg hd]

/-- A text in lower case has what each of its characters becomes at some place. -/
theorem exists_lowerAt_subset {c : Char} {cs : List Char} (h : c ∈ cs) (before : List Char) :
    ∃ front rest, lowerAt front c rest ⊆ lowerFrom before cs := by
  induction cs generalizing before with
  | nil => cases h
  | cons d ds ih =>
    rw [lowerFrom]
    rcases List.mem_cons.1 h with rfl | h
    · exact ⟨before, ds, List.subset_append_left _ _⟩
    · obtain ⟨front, rest, hsub⟩ := ih h (d :: before)
      exact ⟨front, rest, List.Subset.trans hsub (List.subset_append_right _ _)⟩

/-- The last of some texts is at the end of the joined text. -/
theorem suffix_join (sep : String) (parts : List String) (last : String) :
    last.toList <:+ (join sep (parts ++ [last])).toList := by
  induction parts with
  | nil => simp [join]
  | cons p ps ih =>
    obtain ⟨q, qs, hqs⟩ := List.exists_cons_of_ne_nil (List.append_ne_nil_of_right_ne_nil ps
      (List.cons_ne_nil last []))
    rw [join, hqs] at ih
    rw [join, List.cons_append, hqs, String.intercalate_cons_cons, String.toList_append]
    exact ih.trans (List.suffix_append _ _)

end Text

namespace Path

/-- The extension of a path is at the end of its name. -/
theorem extension_suffix (p : Path) : p.extension.toList <:+ p.name.toList := by
  have hsplit : p.name.toList.reverse.takeWhile (· != '.')
      ++ p.name.toList.reverse.dropWhile (· != '.') = p.name.toList.reverse :=
    List.takeWhile_append_dropWhile
  have hhead : ∀ c, (p.name.toList.reverse.dropWhile (· != '.')).head? = some c → c = '.' := by
    intro c hc
    have hnot := List.head?_dropWhile_not (· != '.') p.name.toList.reverse
    rw [hc] at hnot
    simpa using hnot
  rw [extension]
  generalize p.name.toList.reverse.takeWhile (· != '.') = tail at *
  generalize p.name.toList.reverse.dropWhile (· != '.') = front at *
  have hname : p.name.toList = front.reverse ++ tail.reverse := by
    rw [← List.reverse_append, hsplit, List.reverse_reverse]
  simp only [hname]
  split
  · exact List.nil_suffix
  · next h =>
    cases front with
    | nil => simp at h
    | cons c front =>
      obtain rfl : c = '.' := hhead c rfl
      rw [String.toList_ofList, List.reverse_cons, List.append_assoc]
      exact List.suffix_append _ _

end Path

namespace ImageIndex

open Text

/-! ### Extensions of image files -/

/-- A reference ends in the extension of an image file. -/
def HasExtension (reference : String) : Prop :=
  ∃ e ∈ extensions, endsWith e reference = true

instance (reference : String) : Decidable (HasExtension reference) :=
  inferInstanceAs (Decidable (∃ e ∈ extensions, endsWith e reference = true))

theorem withoutExtension_eq_self {n : String} (h : ¬ HasExtension n) : withoutExtension n = n := by
  have hnone : extensions.find? (fun e => endsWith e n) = none :=
    List.find?_eq_none.2 fun e he hends => h ⟨e, he, hends⟩
  rw [withoutExtension, hnone]

theorem withPng?_eq {n : String} (h : ¬ HasExtension n) : withPng? n = some (n ++ ".png") := by
  have hpng : ¬ endsWith ".png" n = true := fun hends => h ⟨".png", List.mem_cons_self, hends⟩
  rw [withPng?, if_neg hpng, withoutExtension_eq_self h]

theorem ne_empty_of_hasExtension {n : String} (h : HasExtension n) : n ≠ "" := by
  rintro rfl
  revert h
  decide

/-- Characters that are an extension in lower case have neither a capital sigma nor a slash of
either kind among them. -/
theorem plain_of_lowerFrom {cs before : List Char} {e : String} (he : e ∈ extensions)
    (h : lowerFrom before cs = e.toList) :
    ∀ c ∈ cs, c.toNat ≠ 0x3A3 ∧ c ≠ '/' ∧ c ≠ '\\' := by
  have hplain : (extensions.all fun e => e.toList.all fun c =>
      c != Char.ofNat 0x3C2 && c != Char.ofNat 0x3C3 && c != '/' && c != '\\') = true := by decide
  simp only [List.all_eq_true, Bool.and_eq_true, bne_iff_ne] at hplain
  intro c hc
  obtain ⟨front, rest, hsub⟩ := exists_lowerAt_subset hc before
  rw [h] at hsub
  refine ⟨fun hsigma => ?_, ?_, ?_⟩
  · rw [lowerAt, if_pos hsigma] at hsub
    split at hsub
    · exact (hplain e he _ (hsub List.mem_cons_self)).1.1.1 rfl
    · exact (hplain e he _ (hsub List.mem_cons_self)).1.1.2 rfl
  · rintro rfl
    exact (hplain e he _ (hsub List.mem_cons_self)).1.2 rfl
  · rintro rfl
    exact (hplain e he _ (hsub List.mem_cons_self)).2 rfl

/-- Normalizing keeps the extension at the end of a path, in small letters. -/
theorem suffix_normalize {cs : List Char} {e s : String} (he : e ∈ extensions)
    (hlower : lowerChars cs = e.toList) (hs : cs <:+ s.toList) :
    e.toList <:+ (normalize s).toList := by
  have hplain := plain_of_lowerFrom he hlower
  have hne : cs ≠ [] := by
    rintro rfl
    exact absurd hlower.symm (by revert e; decide)
  have hkept : cs.map (fun c => if c == '\\' then '/' else c) = cs :=
    (List.map_congr_left fun c hc => if_neg (by simpa using (hplain c hc).2.2)).trans
      (List.map_id cs)
  have hreplaced : cs <:+ (replaceChar '\\' '/' s).toList := by
    rw [replaceChar, String.toList_ofList, ← hkept]
    exact hs.map _
  -- What is dropped in front are slashes only, and the end starts with something else.
  have hdropped : cs <:+ (replaceChar '\\' '/' s).toList.dropWhile (· == '/') := by
    obtain ⟨front, hfront⟩ := hreplaced
    have hstays : cs.dropWhile (· == '/') = cs := by
      obtain ⟨c, rest, rfl⟩ := List.exists_cons_of_ne_nil hne
      exact List.dropWhile_cons_of_neg (by simpa using (hplain c List.mem_cons_self).2.1)
    rw [← hfront, List.dropWhile_append, hstays]
    split
    · exact List.suffix_rfl
    · exact List.suffix_append _ _
  obtain ⟨front, hfront⟩ := hdropped
  rw [normalize, lower, String.toList_ofList, String.toList_ofList, ← hfront, ← hlower, lowerChars,
    lowerFrom_eq (fun c hc => (hplain c hc).1) [] (front.reverse ++ [])]
  exact suffix_lowerFrom [] front cs

/-- Images are indexed with their extensions in small letters. -/
theorem hasExtension_referenceOf {f : FoundFile} (h : isImage f = true) :
    HasExtension (referenceOf f) := by
  rw [isImage, Bool.and_eq_true, List.contains_iff_mem] at h
  obtain ⟨-, he⟩ := h
  rcases List.eq_nil_or_concat f.parts with hparts | ⟨parts, last, hparts⟩
  · rw [hparts] at he
    exact absurd he (by decide)
  · have hname : (⟨"", f.parts⟩ : Path).name = last := by simp [Path.name, hparts]
    have hsuffix : (Path.extension ⟨"", f.parts⟩).toList <:+ (join "/" f.parts).toList := by
      refine (Path.extension_suffix _).trans ?_
      rw [hname, hparts, List.concat_eq_append]
      exact suffix_join "/" parts last
    refine ⟨_, he, List.isSuffixOf_iff_suffix.2 (suffix_normalize he ?_ hsuffix)⟩
    rw [lower, String.toList_ofList]

end ImageIndex

/-! ### Images of a file tree -/

namespace FileTree

open ImageIndex (isImage referenceOf)

/-- What is found below a directory is an image, with a reference of some kind. -/
structure HasImage (tree : FileTree) (directory : Path) (wanted : String → Prop) (f : FoundFile) :
    Prop where
  /-- The directory is there. -/
  isDirectory : tree.isDirectory directory = true
  /-- The image is below it. -/
  mem : f ∈ tree.below directory
  /-- It is a file with the extension of an image. -/
  isImage : isImage f = true
  /-- Its reference is of the kind. -/
  wanted : wanted (referenceOf f)

/-- A path is that of the first image with a reference of some kind: it is below the earliest
directory that has any, and there it comes first in the order of paths. -/
def IsFirstImage (tree : FileTree) (directories : List Path) (wanted : String → Prop) (p : Path) :
    Prop :=
  ∃ earlier directory later, directories = earlier ++ directory :: later
    ∧ (∀ d ∈ earlier, ∀ f, ¬ tree.HasImage d wanted f)
    ∧ ∃ f, tree.HasImage directory wanted f ∧ p = directory.under ⟨"", f.parts⟩
      ∧ ∀ g, tree.HasImage directory wanted g → Path.partsBefore f.parts g.parts = true

/-- The images below a directory in the order of paths; none if the directory is not there. -/
def images (tree : FileTree) (directory : Path) : List FoundFile :=
  if tree.isDirectory directory then
    ((tree.below directory).filter isImage).mergeSort fun f g => Path.partsBefore f.parts g.parts
  else []

variable {tree : FileTree} {directory : Path} {directories : List Path} {p : Path}
  {wanted : String → Bool}

theorem hasImage_iff {f : FoundFile} :
    tree.HasImage directory (wanted · = true) f
      ↔ f ∈ tree.images directory ∧ wanted (referenceOf f) = true := by
  rw [images]
  split
  · next hdirectory =>
    rw [List.mem_mergeSort, List.mem_filter]
    exact ⟨fun h => ⟨⟨h.mem, h.isImage⟩, h.wanted⟩,
      fun h => ⟨hdirectory, h.1.1, h.1.2, h.2⟩⟩
  · next hdirectory => exact iff_of_false (fun h => hdirectory h.isDirectory) (by simp)

theorem pairwise_images (tree : FileTree) (directory : Path) :
    (tree.images directory).Pairwise fun f g => Path.partsBefore f.parts g.parts = true := by
  rw [images]
  split
  · refine List.pairwise_mergeSort (fun f g h => ?_) (fun f g => ?_) _
    · exact Path.partsBefore_trans
    · exact Path.partsBefore_total f.parts g.parts
  · exact List.Pairwise.nil

/-- Images that are listed in the order of paths stay as they are. -/
theorem images_of_pairwise (h : tree.isDirectory directory = true)
    (hsorted : ((tree.below directory).filter isImage).Pairwise
      fun f g : FoundFile => Path.partsBefore f.parts g.parts = true) :
    tree.images directory = (tree.below directory).filter isImage := by
  rw [images, if_pos h]
  exact List.mergeSort_of_pairwise hsorted

theorem find?_images_eq_none_iff :
    (tree.images directory).find? (fun f => wanted (referenceOf f)) = none
      ↔ ∀ f, ¬ tree.HasImage directory (wanted · = true) f := by
  simp only [List.find?_eq_none, hasImage_iff, not_and]

theorem hasImage_of_find?_images {f : FoundFile}
    (h : (tree.images directory).find? (fun f => wanted (referenceOf f)) = some f) :
    tree.HasImage directory (wanted · = true) f :=
  hasImage_iff.2 ⟨List.mem_of_find?_eq_some h, (List.find?_eq_some_iff_append.1 h).1⟩

/-- What is found first among the images of a directory comes first in the order of paths. -/
theorem partsBefore_of_find?_images {f g : FoundFile}
    (hf : (tree.images directory).find? (fun f => wanted (referenceOf f)) = some f)
    (hg : tree.HasImage directory (wanted · = true) g) :
    Path.partsBefore f.parts g.parts = true := by
  obtain ⟨-, before, after, himages, hbefore⟩ := List.find?_eq_some_iff_append.1 hf
  obtain ⟨hmem, hwanted⟩ := hasImage_iff.1 hg
  have hsorted := tree.pairwise_images directory
  rw [himages, List.mem_append, List.mem_cons] at hmem
  rw [himages, List.pairwise_append, List.pairwise_cons] at hsorted
  rcases hmem with hmem | rfl | hmem
  · simpa [hwanted] using hbefore g hmem
  · exact Path.partsBefore_refl _
  · exact hsorted.2.1.1 g hmem

/-- Where an image stands in the order of paths determines its path, so the one that is found first
is the only one that comes first. -/
theorem find?_images_eq_some_iff :
    ((tree.images directory).find? (fun f => wanted (referenceOf f))).map
        (fun f => directory.under ⟨"", f.parts⟩) = some p
      ↔ ∃ f, tree.HasImage directory (wanted · = true) f ∧ p = directory.under ⟨"", f.parts⟩
        ∧ ∀ g, tree.HasImage directory (wanted · = true) g →
          Path.partsBefore f.parts g.parts = true := by
  constructor
  · intro h
    obtain ⟨f, hf, rfl⟩ := Option.map_eq_some_iff.1 h
    exact ⟨f, hasImage_of_find?_images hf, rfl, fun g hg => partsBefore_of_find?_images hf hg⟩
  · rintro ⟨f, hf, rfl, hfirst⟩
    obtain ⟨hmem, hwanted⟩ := hasImage_iff.1 hf
    have hsome : ((tree.images directory).find? fun f => wanted (referenceOf f)).isSome = true :=
      List.find?_isSome.2 ⟨f, hmem, hwanted⟩
    obtain ⟨g, hg⟩ := Option.isSome_iff_exists.1 hsome
    have hparts : g.parts = f.parts :=
      Path.partsBefore_antisymm (partsBefore_of_find?_images hg hf)
        (hfirst g (hasImage_of_find?_images hg))
    rw [hg, Option.map_some, hparts]

/-- The images below directories with their paths, directory by directory. -/
def imagesBelow (tree : FileTree) (directories : List Path) : List (Path × FoundFile) :=
  directories.flatMap fun d => (tree.images d).map fun f => (d.under ⟨"", f.parts⟩, f)

theorem find?_imagesBelow_eq_some_iff :
    ((tree.imagesBelow directories).find? (fun e => wanted (referenceOf e.2))).map (·.1) = some p
      ↔ tree.IsFirstImage directories (wanted · = true) p := by
  have hfind : ∀ d, (((tree.images d).map fun f => (d.under ⟨"", f.parts⟩, f)).find?
      fun e => wanted (referenceOf e.2)).map (·.1)
        = ((tree.images d).find? fun f => wanted (referenceOf f)).map
          fun f => d.under ⟨"", f.parts⟩ := fun d => by
    rw [List.find?_map, Option.map_map]
    rfl
  rw [imagesBelow, List.find?_flatMap, List.map_findSome?, List.findSome?_eq_some_iff]
  simp only [Function.comp_apply, hfind, find?_images_eq_some_iff, Option.map_eq_none_iff,
    find?_images_eq_none_iff]
  exact ⟨fun ⟨earlier, d, later, hds, hd, hearlier⟩ => ⟨earlier, d, later, hds, hearlier, hd⟩,
    fun ⟨earlier, d, later, hds, hearlier, hd⟩ => ⟨earlier, d, later, hds, hd, hearlier⟩⟩

end FileTree

/-! ### The index of a file tree -/

namespace ImageIndex

/-- The path of the first reference of some kind. -/
def first? (index : ImageIndex) (wanted : String → Bool) : Option Path :=
  (index.entries.find? fun e => wanted e.1).map (·.2)

theorem get?_eq_first? (index : ImageIndex) (key : String) :
    index.get? key = index.first? (· == key) := by
  rw [Ledger.get?, first?]
  induction index.entries with
  | nil => rfl
  | cons e es ih =>
    rw [Ledger.lookIn, List.find?_cons]
    by_cases he : e.1 = key
    · rw [if_pos he, beq_iff_eq.2 he, Option.map_some]
    · rw [if_neg he, beq_eq_false_iff_ne.2 he, ih]

theorem first?_insertNew (index : ImageIndex) (key : String) (p : Path) (wanted : String → Bool) :
    first? (index.insertNew key p) wanted
      = (index.first? wanted).or (if wanted key then some p else none) := by
  rw [Ledger.insertNew]
  split
  · next hkey =>
    rw [Ledger.contains_iff, Ledger.keys_eq, List.mem_map] at hkey
    obtain ⟨e, he, rfl⟩ := hkey
    split
    · next hwanted =>
      have hsome : (index.first? wanted).isSome = true := by
        rw [first?, Option.isSome_map, List.find?_isSome]
        exact ⟨e, he, hwanted⟩
      exact (Option.or_of_isSome hsome).symm
    · exact Option.or_none.symm
  · next hkey =>
    rw [Ledger.contains_iff] at hkey
    rw [first?, Ledger.entries_insert_of_not_mem hkey, List.find?_append, Option.map_or]
    refine congrArg (Option.or _) ?_
    rw [List.find?_singleton]
    split <;> rfl

/-- The first reference of some kind that is found counts, unless there was one before. -/
theorem first?_addAll (index : ImageIndex) (found : List (Path × FoundFile))
    (wanted : String → Bool) :
    (addAll index found).first? wanted
      = (index.first? wanted).or
        ((found.find? fun e => wanted (referenceOf e.2)).map (·.1)) := by
  induction found generalizing index with
  | nil => exact Option.or_none.symm
  | cons e es ih =>
    have hstep : addAll index (e :: es) = addAll (index.insertNew (referenceOf e.2) e.1) es := rfl
    rw [hstep, ih, first?_insertNew, Option.or_assoc, List.find?_cons]
    by_cases he : wanted (referenceOf e.2) = true <;> simp [he]

/-- The index of the images that a file tree has below directories. -/
def ofTree (tree : FileTree) (directories : List Path) : ImageIndex :=
  addAll {} (tree.imagesBelow directories)

/-- Whatever is looked up in the index of a file tree, the first image of the tree is found. -/
theorem first?_ofTree {tree : FileTree} {directories : List Path} {wanted : String → Bool}
    {p : Path} :
    (ofTree tree directories).first? wanted = some p
      ↔ tree.IsFirstImage directories (wanted · = true) p := by
  rw [ofTree, first?_addAll]
  exact FileTree.find?_imagesBelow_eq_some_iff

/-- The path of a reference is that of its first image. -/
theorem get?_ofTree {tree : FileTree} {directories : List Path} {key : String} {p : Path} :
    (ofTree tree directories).get? key = some p ↔ tree.IsFirstImage directories (· = key) p := by
  rw [get?_eq_first?, first?_ofTree]
  simp only [beq_iff_eq]

end ImageIndex

end Otui
