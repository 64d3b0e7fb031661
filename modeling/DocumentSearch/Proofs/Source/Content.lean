import DocumentSearch.Proofs.Lists
import DocumentSearch.Source.Content
import Mathlib

/-!
# What the files of a directory hold

Every demo that can be read is an item, with the text of the page beside it if that can be read, and
every page that can be read and has no such demo is an item of its own. This says which items there
are, whatever the order of the walk through the files and of the table of pages.

The demos found on the way mark the pages that are not to be shown again. So a page and a demo never
share the name of their item, and only demos can be equal for the last sort. They were found in the
order of their files, and the sort keeps them in it.

Results:

* `ContentFile.demoName?_eq_some_iff`: a file has one ending and one name without it.
* `Demos.mem_paired_ofFiles_iff`: the pages that are marked on the way.
* `isCatalog_entriesOf`: the items that are collected and sorted.
* `IsCatalog.unique`: there is one list of the items of a directory.
* `exists_catalog`: it is the list that is loaded.
-/

namespace DocumentSearch

open Text

/-! ## Names -/

namespace ContentFile

/-- Does the file hold a demo of the name? -/
def IsDemoOf (f : ContentFile) (name : Text) : Prop :=
  ∃ ending ∈ demoEndings, f.name = name ++ ending

/-- Does the file hold a page of the name? -/
def IsPageOf (f : ContentFile) (name : Text) : Prop := f.name = name ++ pageEnding

/-- No ending is the end of another one. -/
theorem ending_eq_of_append_eq {name name' ending ending' : Text}
    (hending : ending ∈ pageEnding :: demoEndings)
    (hending' : ending' ∈ pageEnding :: demoEndings) (h : name ++ ending = name' ++ ending') :
    ending = ending' := by
  have hends : ∀ e ∈ pageEnding :: demoEndings, ∀ e' ∈ pageEnding :: demoEndings,
      e <:+ e' → e = e' := by decide
  rcases List.suffix_or_suffix_of_suffix ⟨name, h⟩ ⟨name', rfl⟩ with hsuffix | hsuffix
  · exact hends _ hending _ hending' hsuffix
  · exact (hends _ hending' _ hending hsuffix).symm

theorem IsDemoOf.unique {f : ContentFile} {name name' : Text} (h : f.IsDemoOf name)
    (h' : f.IsDemoOf name') : name = name' := by
  obtain ⟨ending, hending, hname⟩ := h
  obtain ⟨ending', hending', hname'⟩ := h'
  have heq : name ++ ending = name' ++ ending' := hname.symm.trans hname'
  rw [ending_eq_of_append_eq (List.mem_cons_of_mem _ hending) (List.mem_cons_of_mem _ hending')
    heq] at heq
  exact List.append_cancel_right heq

/-- A file that holds a page holds no demo. -/
theorem IsPageOf.not_isDemoOf {f : ContentFile} {name name' : Text} (h : f.IsPageOf name) :
    ¬ f.IsDemoOf name' := by
  rintro ⟨ending, hending, hname⟩
  have heq : pageEnding = ending := ending_eq_of_append_eq List.mem_cons_self
    (List.mem_cons_of_mem _ hending) (h.symm.trans hname)
  exact absurd (heq ▸ hending) (by decide)

theorem demoName?_eq_some_iff {f : ContentFile} {name : Text} :
    f.demoName? = some name ↔ f.IsDemoOf name := by
  have hsound {name' : Text} (h : f.demoName? = some name') : f.IsDemoOf name' := by
    obtain ⟨ending, hending, hname⟩ := List.exists_of_findSome?_eq_some h
    exact ⟨ending, hending, beforeSuffix?_eq_some_iff.1 hname⟩
  refine ⟨hsound, fun h => ?_⟩
  obtain ⟨ending, hending, hname⟩ := h
  have hsome : f.demoName?.isSome = true := by
    rw [demoName?, List.findSome?_isSome_iff]
    exact ⟨ending, hending, by rw [beforeSuffix?_eq_some_iff.2 hname, Option.isSome_some]⟩
  obtain ⟨name', hname'⟩ := Option.isSome_iff_exists.1 hsome
  rw [hname', (hsound hname').unique ⟨ending, hending, hname⟩]

theorem pageName?_eq_some_iff {f : ContentFile} {name : Text} :
    f.pageName? = some name ↔ f.IsPageOf name := beforeSuffix?_eq_some_iff

end ContentFile

/-! ## Catalogs -/

/-- Is there a demo of the name that can be read? -/
def HasDemo (files : List ContentFile) (name : Text) : Prop :=
  ∃ f ∈ files, f.IsDemoOf name ∧ f.text.isSome = true

/-- The file, one of the given ones, holds the item. -/
inductive Holds (files : List ContentFile) : ContentFile → Item → Prop where
  | demo {f : ContentFile} {name code : Text} {page : Option Text} (mem : f ∈ files)
      (isDemo : f.IsDemoOf name) (text_eq : f.text = some code)
      (page_iff : ∀ t, page = some t ↔ ∃ p ∈ files, p.IsPageOf name ∧ p.text = some t) :
      Holds files f { name := name, kind := .demo, markdown := page, rawContent := some code }
  | page {f : ContentFile} {name text : Text} (mem : f ∈ files) (isPage : f.IsPageOf name)
      (text_eq : f.text = some text) (alone : ¬ HasDemo files name) :
      Holds files f { name := name, kind := .markdown, markdown := some text }

/-- A file holds one item at most. -/
theorem Holds.unique {files : List ContentFile} {f : ContentFile} {item item' : Item}
    (h : Holds files f item) (h' : Holds files f item') : item = item' := by
  cases h with
  | demo mem isDemo text_eq page_iff =>
    cases h' with
    | demo mem' isDemo' text_eq' page_iff' =>
      obtain rfl := isDemo.unique isDemo'
      rw [text_eq, Option.some.injEq] at text_eq'
      rw [text_eq', Option.ext fun t => (page_iff t).trans (page_iff' t).symm]
    | page mem' isPage => exact absurd isDemo isPage.not_isDemoOf
  | page mem isPage text_eq alone =>
    cases h' with
    | demo mem' isDemo' => exact absurd isDemo' isPage.not_isDemoOf
    | page mem' isPage' text_eq' alone' =>
      obtain rfl := List.append_cancel_right (isPage.symm.trans isPage')
      rw [text_eq, Option.some.injEq] at text_eq'
      rw [text_eq']

/-- The text stands before the other one in the order of code points. -/
def IsBefore (s t : Text) : Prop := atMost s t = true ∧ s ≠ t

theorem IsBefore.asymm {s t : Text} (h : IsBefore s t) : ¬ IsBefore t s :=
  fun hback => h.2 (atMost_antisymm h.1 hback.1)

/-- The item stands before the other one: by its name, or if they are equal, by that of its file. -/
def Precedes (a b : ContentFile × Item) : Prop :=
  IsBefore a.2.name b.2.name ∨ a.2.name = b.2.name ∧ IsBefore a.1.name b.1.name

theorem Precedes.asymm {a b : ContentFile × Item} (h : Precedes a b) : ¬ Precedes b a := by
  rcases h with hlt | ⟨heq, hlt⟩
  · rintro (hback | ⟨hback, -⟩)
    · exact hlt.asymm hback
    · exact hlt.2 hback.symm
  · rintro (hback | ⟨-, hback⟩)
    · exact hback.2 heq.symm
    · exact hlt.asymm hback

/-- The items of files, each with its file, in their order. -/
structure IsCatalog (files : List ContentFile) (catalog : List (ContentFile × Item)) : Prop where
  mem_iff : ∀ f item, (f, item) ∈ catalog ↔ Holds files f item
  sorted : catalog.Pairwise Precedes

theorem IsCatalog.unique {files : List ContentFile} {catalog catalog' : List (ContentFile × Item)}
    (h : IsCatalog files catalog) (h' : IsCatalog files catalog') : catalog = catalog' :=
  eq_of_pairwise_of_mem_iff Precedes.asymm h.sorted h'.sorted fun ⟨f, item⟩ =>
    (h.mem_iff f item).trans (h'.mem_iff f item).symm

theorem IsCatalog.nodup_files {files : List ContentFile} {catalog : List (ContentFile × Item)}
    (h : IsCatalog files catalog) : (catalog.map Prod.fst).Nodup := by
  refine List.pairwise_map.2 (h.sorted.imp_of_mem ?_)
  rintro ⟨f, item⟩ ⟨g, item'⟩ ha hb hlt rfl
  obtain rfl := ((h.mem_iff f item).1 ha).unique ((h.mem_iff f item').1 hb)
  exact hlt.asymm hlt

/-! ## Tables of pages -/

variable {files : List ContentFile} {pages : List (Text × ContentFile)}

/-- The table holds the pages of the files, each under its own name. -/
structure IsTableOfPages (files : List ContentFile) (pages : List (Text × ContentFile)) : Prop where
  mem_iff : ∀ name f, (name, f) ∈ pages ↔ f ∈ files ∧ f.IsPageOf name
  nodup : (pages.map Prod.fst).Nodup

theorem isTableOfPages_of_perm (hnames : (files.map ContentFile.name).Nodup)
    (h : pages.Perm (pageTable files)) : IsTableOfPages files pages := by
  constructor
  · intro name f
    rw [h.mem_iff, pageTable, List.mem_filterMap]
    simp only [Option.map_eq_some_iff, Prod.mk.injEq]
    constructor
    · rintro ⟨f', hf, name', hname, rfl, rfl⟩
      exact ⟨hf, ContentFile.pageName?_eq_some_iff.1 hname⟩
    · rintro ⟨hf, hname⟩
      exact ⟨f, hf, name, ContentFile.pageName?_eq_some_iff.2 hname, rfl, rfl⟩
  · rw [(h.map Prod.fst).nodup_iff, pageTable, List.map_filterMap]
    refine List.Pairwise.filterMap _ ?_ (List.pairwise_map.1 hnames)
    intro f g hne name hname name' hname' heq
    simp only [Option.map_map, Option.map_eq_some_iff] at hname hname'
    obtain ⟨page, hpage, rfl⟩ := hname
    obtain ⟨page', hpage', rfl⟩ := hname'
    refine hne ?_
    rw [ContentFile.pageName?_eq_some_iff.1 hpage, ContentFile.pageName?_eq_some_iff.1 hpage']
    exact congrArg (· ++ ContentFile.pageEnding) heq

theorem IsTableOfPages.lookup_eq_some_iff (h : IsTableOfPages files pages) {name : Text}
    {f : ContentFile} : pages.lookup name = some f ↔ f ∈ files ∧ f.IsPageOf name :=
  (lookup_eq_some_iff_mem h.nodup).trans (h.mem_iff name f)

/-- The text that a table gives for a name is that of a page of the name. -/
theorem IsTableOfPages.lookup_bind_text_eq_some_iff (h : IsTableOfPages files pages)
    {name t : Text} : (pages.lookup name).bind ContentFile.text = some t ↔
      ∃ p ∈ files, p.IsPageOf name ∧ p.text = some t := by
  simp only [Option.bind_eq_some_iff, h.lookup_eq_some_iff, and_assoc]

/-! ## Demos on the way through the files -/

theorem demoItem_eq (name code : Text) (page : Option ContentFile) :
    demoItem name code page =
      { name := name, kind := .demo, markdown := page.bind ContentFile.text,
        rawContent := some code } := by
  rw [demoItem]
  split
  · next text htext => rw [htext]; rfl
  · next hnone => rw [hnone]; rfl

/-- The item of a demo with its file. -/
def demoWithFile? (pages : List (Text × ContentFile)) (f : ContentFile) :
    Option (ContentFile × Item) :=
  f.demoName?.bind fun name => f.text.map fun code => (f, demoItem name code (pages.lookup name))

namespace Demos

/-- Is there a demo that can be read, and a page that it marks? -/
def Marks (pages : List (Text × ContentFile)) (f : ContentFile) (name : Text) : Prop :=
  f.IsDemoOf name ∧ f.text.isSome = true ∧ (pages.lookup name).isSome = true

theorem items_add (demos : Demos) (f : ContentFile) :
    (demos.add pages f).items = demos.items ++ ((demoWithFile? pages f).map Prod.snd).toList := by
  rw [add, demoWithFile?]
  cases f.demoName? with
  | none => simp
  | some name => cases f.text <;> simp

theorem mem_paired_add_iff (demos : Demos) (f : ContentFile) (name : Text) :
    name ∈ (demos.add pages f).paired ↔ name ∈ demos.paired ∨ Marks pages f name := by
  rw [add, Marks, ← ContentFile.demoName?_eq_some_iff]
  cases f.demoName? with
  | none => simp
  | some name' =>
    cases f.text with
    | none => simp
    | some code =>
      by_cases hpage : (pages.lookup name').isSome = true
      · simp only [hpage]
        grind
      · simp only [hpage]
        grind

theorem items_foldl_add (demos : Demos) (files : List ContentFile) :
    (files.foldl (add pages) demos).items =
      demos.items ++ (files.filterMap (demoWithFile? pages)).map Prod.snd := by
  induction files generalizing demos with
  | nil => simp
  | cons f files ih =>
    rw [List.foldl_cons, ih, items_add, List.filterMap_cons]
    cases demoWithFile? pages f <;> simp

theorem mem_paired_foldl_add_iff (demos : Demos) (files : List ContentFile) (name : Text) :
    name ∈ (files.foldl (add pages) demos).paired ↔
      name ∈ demos.paired ∨ ∃ f ∈ files, Marks pages f name := by
  induction files generalizing demos with
  | nil => simp
  | cons f files ih =>
    rw [List.foldl_cons, ih, mem_paired_add_iff, or_assoc]
    simp

theorem items_ofFiles (pages : List (Text × ContentFile)) (files : List ContentFile) :
    (ofFiles pages files).items = (files.filterMap (demoWithFile? pages)).map Prod.snd :=
  items_foldl_add {} files

theorem mem_paired_ofFiles_iff {name : Text} :
    name ∈ (ofFiles pages files).paired ↔ ∃ f ∈ files, Marks pages f name := by
  rw [ofFiles, mem_paired_foldl_add_iff]
  simp

end Demos

/-! ## All items with their files -/

/-- The item of a page with its file. -/
def pageWithFile? (paired : List Text) (page : Text × ContentFile) : Option (ContentFile × Item) :=
  (pageItem? paired page).map fun item => (page.2, item)

/-- The items that the files hold, with their files, before the last sort. -/
def foundEntries (files : List ContentFile) (pages : List (Text × ContentFile)) :
    List (ContentFile × Item) :=
  files.filterMap (demoWithFile? pages) ++
    pages.filterMap (pageWithFile? (Demos.ofFiles pages files).paired)

/-- The items that the files hold, with their files. -/
def entriesOf (files : List ContentFile) (pages : List (Text × ContentFile)) :
    List (ContentFile × Item) :=
  (foundEntries files pages).mergeSort fun a b => atMost a.2.name b.2.name

theorem itemsOf_eq_map_entriesOf (files : List ContentFile) (pages : List (Text × ContentFile)) :
    itemsOf files pages = (entriesOf files pages).map Prod.snd := by
  have hpages : pages.filterMap (pageItem? (Demos.ofFiles pages files).paired) =
      (pages.filterMap (pageWithFile? (Demos.ofFiles pages files).paired)).map Prod.snd := by
    rw [List.map_filterMap]
    refine congrArg (pages.filterMap ·) (funext fun page => ?_)
    rw [pageWithFile?, Option.map_map]
    exact Option.map_id'.symm
  rw [itemsOf, Demos.items_ofFiles, hpages, ← List.map_append, sortByName]
  exact (List.map_mergeSort (f := Prod.snd) fun _ _ _ _ => rfl).symm

section Entries

variable {entry : ContentFile × Item}

theorem demoWithFile?_eq_some_iff {f : ContentFile} :
    demoWithFile? pages f = some entry ↔ ∃ name code, f.IsDemoOf name ∧ f.text = some code ∧
      entry = (f, demoItem name code (pages.lookup name)) := by
  rw [demoWithFile?, Option.bind_eq_some_iff]
  simp only [ContentFile.demoName?_eq_some_iff, Option.map_eq_some_iff]
  constructor
  · rintro ⟨name, hname, code, hcode, rfl⟩
    exact ⟨name, code, hname, hcode, rfl⟩
  · rintro ⟨name, code, hname, hcode, rfl⟩
    exact ⟨name, hname, code, hcode, rfl⟩

theorem pageWithFile?_eq_some_iff {paired : List Text} {page : Text × ContentFile} :
    pageWithFile? paired page = some entry ↔ page.1 ∉ paired ∧ ∃ text, page.2.text = some text ∧
      entry = (page.2, { name := page.1, kind := .markdown, markdown := some text }) := by
  obtain ⟨name, f⟩ := page
  rw [pageWithFile?, pageItem?]
  by_cases hpaired : name ∈ paired
  · simp [hpaired]
  · rw [if_neg hpaired, Option.map_map, Option.map_eq_some_iff]
    constructor
    · rintro ⟨text, htext, rfl⟩
      exact ⟨hpaired, text, htext, rfl⟩
    · rintro ⟨-, text, htext, rfl⟩
      exact ⟨text, htext, rfl⟩

/-- A page is marked iff there is a demo beside it that can be read. -/
theorem IsTableOfPages.mem_paired_iff (h : IsTableOfPages files pages) {name : Text}
    {f : ContentFile} (hpage : (name, f) ∈ pages) :
    name ∈ (Demos.ofFiles pages files).paired ↔ HasDemo files name := by
  have hlookup : (pages.lookup name).isSome = true := by
    rw [(lookup_eq_some_iff_mem h.nodup).2 hpage]
    rfl
  rw [Demos.mem_paired_ofFiles_iff, HasDemo]
  simp only [Demos.Marks, hlookup, and_true]

theorem mem_foundEntries_iff (h : IsTableOfPages files pages) (f : ContentFile) (item : Item) :
    (f, item) ∈ foundEntries files pages ↔ Holds files f item := by
  rw [foundEntries, List.mem_append, List.mem_filterMap, List.mem_filterMap]
  simp only [demoWithFile?_eq_some_iff, pageWithFile?_eq_some_iff]
  constructor
  · rintro (⟨g, hg, name, code, hname, hcode, he⟩ | ⟨⟨name, g⟩, hpage, hpaired, text, htext, he⟩)
    · obtain ⟨rfl, rfl⟩ := Prod.mk.inj he
      rw [demoItem_eq]
      exact .demo hg hname hcode fun t => h.lookup_bind_text_eq_some_iff
    · obtain ⟨rfl, rfl⟩ := Prod.mk.inj he
      obtain ⟨hf, hname⟩ := (h.mem_iff name f).1 hpage
      exact .page hf hname htext (mt (h.mem_paired_iff hpage).2 hpaired)
  · intro hholds
    cases hholds with
    | @demo name code page mem isDemo text_eq page_iff =>
      have hpage : page = (pages.lookup name).bind ContentFile.text :=
        Option.ext fun t => (page_iff t).trans h.lookup_bind_text_eq_some_iff.symm
      refine .inl ⟨f, mem, name, code, isDemo, text_eq, ?_⟩
      rw [demoItem_eq, hpage]
    | @page name text mem isPage text_eq alone =>
      have hpage : (name, f) ∈ pages := (h.mem_iff name f).2 ⟨mem, isPage⟩
      exact .inr ⟨(name, f), hpage, mt (h.mem_paired_iff hpage).1 alone, text, text_eq, rfl⟩

/-- Items of equal name stand in the order of their files, even before the last sort. -/
theorem pairwise_foundEntries (h : IsTableOfPages files pages)
    (hsorted : files.Pairwise fun f g => IsBefore f.name g.name) :
    (foundEntries files pages).Pairwise fun a b =>
      a.2.name = b.2.name → IsBefore a.1.name b.1.name := by
  rw [foundEntries, List.pairwise_append]
  refine ⟨List.Pairwise.filterMap _ ?_ hsorted, List.Pairwise.filterMap _ ?_
    (List.pairwise_map.1 h.nodup), ?_⟩
  · intro f g hlt a ha b hb _
    obtain ⟨name, code, -, -, rfl⟩ := demoWithFile?_eq_some_iff.1 ha
    obtain ⟨name', code', -, -, rfl⟩ := demoWithFile?_eq_some_iff.1 hb
    exact hlt
  · intro page page' hne a ha b hb heq
    obtain ⟨-, text, -, rfl⟩ := pageWithFile?_eq_some_iff.1 ha
    obtain ⟨-, text', -, rfl⟩ := pageWithFile?_eq_some_iff.1 hb
    exact absurd heq hne
  · -- A demo and a page with its name: the demo has marked the page.
    intro a ha b hb heq
    obtain ⟨f, hf, ha⟩ := List.mem_filterMap.1 ha
    obtain ⟨page, hpage, hb⟩ := List.mem_filterMap.1 hb
    obtain ⟨name, code, hname, hcode, rfl⟩ := demoWithFile?_eq_some_iff.1 ha
    obtain ⟨hpaired, text, -, rfl⟩ := pageWithFile?_eq_some_iff.1 hb
    rw [demoItem_eq] at heq
    have hsame : name = page.1 := heq
    refine absurd ((h.mem_paired_iff hpage).2 ⟨f, hf, hsame ▸ hname, ?_⟩) hpaired
    rw [hcode, Option.isSome_some]

theorem isCatalog_entriesOf (h : IsTableOfPages files pages)
    (hsorted : files.Pairwise fun f g => IsBefore f.name g.name) :
    IsCatalog files (entriesOf files pages) := by
  refine ⟨fun f item => List.mem_mergeSort.trans (mem_foundEntries_iff h f item), ?_⟩
  have hties : (foundEntries files pages).Pairwise fun a b => atMost a.2.name b.2.name = true →
      atMost b.2.name a.2.name = true → IsBefore a.1.name b.1.name :=
    (pairwise_foundEntries h hsorted).imp fun hties hle hge => hties (atMost_antisymm hle hge)
  refine (pairwise_mergeSort ?_ ?_ hties).imp ?_
  · exact fun a b c => atMost_trans
  · exact fun a b => atMost_total _ _
  · rintro a b ⟨hle, htie⟩
    by_cases heq : a.2.name = b.2.name
    · exact .inr ⟨heq, htie (heq ▸ atMost_refl _)⟩
    · exact .inl ⟨hle, heq⟩

end Entries

/-! ## Any order of the files and of the pages -/

theorem pairwise_isBefore_sortFiles (h : (files.map ContentFile.name).Nodup) :
    (sortFiles files).Pairwise fun f g => IsBefore f.name g.name := by
  have hle : (sortFiles files).Pairwise fun f g => atMost f.name g.name = true := by
    refine List.pairwise_mergeSort ?_ ?_ files
    · exact fun f g k => atMost_trans
    · exact fun f g => atMost_total _ _
  have hne : (sortFiles files).Pairwise fun f g => f.name ≠ g.name :=
    List.pairwise_map.1 (((List.mergeSort_perm files _).map ContentFile.name).nodup_iff.2 h)
  exact hle.and hne

/-- What a file holds depends on which files there are, and not on their order. -/
theorem Holds.of_perm {files' : List ContentFile} {f : ContentFile} {item : Item}
    (h : Holds files f item) (hperm : files.Perm files') : Holds files' f item := by
  cases h with
  | demo mem isDemo text_eq page_iff =>
    refine .demo (hperm.mem_iff.1 mem) isDemo text_eq fun t => ?_
    simp only [page_iff t, hperm.mem_iff]
  | page mem isPage text_eq alone =>
    exact .page (hperm.mem_iff.1 mem) isPage text_eq fun ⟨g, hg, hdemo⟩ =>
      alone ⟨g, hperm.mem_iff.2 hg, hdemo⟩

theorem isCatalog_of_perm {files' : List ContentFile} (hnames : (files.map ContentFile.name).Nodup)
    (hfiles : files'.Perm files) (hpages : pages.Perm (pageTable (sortFiles files'))) :
    IsCatalog files (entriesOf (sortFiles files') pages) := by
  have hperm : (sortFiles files').Perm files := (List.mergeSort_perm files' _).trans hfiles
  have hnames' : ((sortFiles files').map ContentFile.name).Nodup :=
    (hperm.map ContentFile.name).nodup_iff.2 hnames
  have hcatalog : IsCatalog (sortFiles files') (entriesOf (sortFiles files') pages) :=
    isCatalog_entriesOf (isTableOfPages_of_perm hnames' hpages)
      (pairwise_isBefore_sortFiles ((hfiles.map ContentFile.name).nodup_iff.2 hnames))
  refine ⟨fun f item => (hcatalog.mem_iff f item).trans ?_, hcatalog.sorted⟩
  exact ⟨fun h => h.of_perm hperm, fun h => h.of_perm hperm.symm⟩

/-! ## Demos and pages of one name -/

section Names

variable {catalog : List (ContentFile × Item)} {f : ContentFile} {item : Item}

theorem Holds.kind_eq_demo_iff (h : Holds files f item) :
    item.kind = .demo ↔ HasDemo files item.name := by
  cases h with
  | demo mem isDemo text_eq page_iff =>
    exact iff_of_true rfl ⟨f, mem, isDemo, by rw [text_eq, Option.isSome_some]⟩
  | page mem isPage text_eq alone => exact iff_of_false nofun alone

theorem Holds.kind_eq (h : Holds files f item) : item.kind = .demo ∨ item.kind = .markdown := by
  cases h with
  | demo => exact .inl rfl
  | page => exact .inr rfl

/-- No page is an item beside a demo of its name. -/
theorem IsCatalog.kind_eq (h : IsCatalog files catalog) {a b : ContentFile × Item}
    (ha : a ∈ catalog) (hb : b ∈ catalog) (hname : a.2.name = b.2.name) : a.2.kind = b.2.kind := by
  have hfirst := (h.mem_iff a.1 a.2).1 ha
  have hsecond := (h.mem_iff b.1 b.2).1 hb
  have hiff : a.2.kind = .demo ↔ b.2.kind = .demo := by
    rw [hfirst.kind_eq_demo_iff, hsecond.kind_eq_demo_iff, hname]
  rcases hfirst.kind_eq with hdemo | hpage
  · rw [hdemo, hiff.1 hdemo]
  · rcases hsecond.kind_eq with hdemo | hpage'
    · rw [hdemo, hiff.2 hdemo]
    · rw [hpage, hpage']

/-- No demo that can be read is lost. -/
theorem IsCatalog.exists_mem_of_isDemoOf (h : IsCatalog files catalog)
    (hnames : (files.map ContentFile.name).Nodup) {name : Text} (hf : f ∈ files)
    (hname : f.IsDemoOf name) (htext : f.text.isSome = true) : ∃ item, (f, item) ∈ catalog := by
  have htable : IsTableOfPages files (pageTable files) :=
    isTableOfPages_of_perm hnames (List.Perm.refl _)
  obtain ⟨code, hcode⟩ := Option.isSome_iff_exists.1 htext
  exact ⟨_, (h.mem_iff f _).2
    (.demo hf hname hcode fun t => htable.lookup_bind_text_eq_some_iff)⟩

/-- The text of a page is shown with its name: beside every demo of the name, or as the one item of
the name. -/
def IsShownOnce (catalog : List (ContentFile × Item)) (f : ContentFile) (name text : Text) : Prop :=
  (∃ a ∈ catalog, a.2.name = name) ∧
    ((∀ a ∈ catalog, a.2.name = name → a.2.kind = .demo ∧ a.2.markdown = some text) ∨
      ∀ a ∈ catalog, a.2.name = name →
        a = (f, { name := name, kind := .markdown, markdown := some text }))

theorem IsCatalog.isShownOnce (h : IsCatalog files catalog)
    (hnames : (files.map ContentFile.name).Nodup) {name text : Text} (hf : f ∈ files)
    (hpage : f.IsPageOf name) (htext : f.text = some text) : IsShownOnce catalog f name text := by
  have htable : IsTableOfPages files (pageTable files) :=
    isTableOfPages_of_perm hnames (List.Perm.refl _)
  have hlookup := htable.lookup_eq_some_iff.2 ⟨hf, hpage⟩
  have hbeside (t : Text) :
      some text = some t ↔ ∃ p ∈ files, p.IsPageOf name ∧ p.text = some t := by
    rw [← htable.lookup_bind_text_eq_some_iff, hlookup, Option.bind_some, htext]
  by_cases hdemo : HasDemo files name
  · obtain ⟨g, hg, hgname, hcode⟩ := id hdemo
    obtain ⟨code, hcode⟩ := Option.isSome_iff_exists.1 hcode
    refine ⟨⟨_, (h.mem_iff g _).2 (.demo hg hgname hcode hbeside), rfl⟩, .inl ?_⟩
    rintro ⟨g', item⟩ ha rfl
    cases (h.mem_iff g' item).1 ha with
    | demo mem isDemo text_eq page_iff =>
      exact ⟨rfl, (page_iff text).2 ⟨f, hf, hpage, htext⟩⟩
    | page mem isPage text_eq alone => exact absurd hdemo alone
  · refine ⟨⟨_, (h.mem_iff f _).2 (.page hf hpage htext hdemo), rfl⟩, .inr ?_⟩
    rintro ⟨g, item⟩ ha rfl
    cases (h.mem_iff g item).1 ha with
    | demo mem isDemo text_eq page_iff =>
      exact absurd ⟨g, mem, isDemo, by rw [text_eq, Option.isSome_some]⟩ hdemo
    | page mem isPage text_eq alone =>
      have hsame := htable.lookup_eq_some_iff.2 ⟨mem, isPage⟩
      rw [hlookup] at hsame
      obtain rfl := Option.some.inj hsame
      rw [text_eq, Option.some.injEq] at htext
      rw [htext]

end Names

/-! ## Loading -/

/-- The items of the files, each with its file, in their one order. It is what is loaded, whatever
the order of the files and of the table of their pages. -/
theorem exists_catalog {files : List ContentFile} (hnames : (files.map ContentFile.name).Nodup) :
    ∃ catalog : List (ContentFile × Item), IsCatalog files catalog ∧
      (catalog.map Prod.fst).Nodup ∧
      (∀ f ∈ files, ∀ name, f.IsDemoOf name → f.text.isSome = true → ∃ item, (f, item) ∈ catalog) ∧
      (∀ a ∈ catalog, ∀ b ∈ catalog, a.2.name = b.2.name → a.2.kind = b.2.kind) ∧
      (∀ f ∈ files, ∀ name text, f.IsPageOf name → f.text = some text →
        IsShownOnce catalog f name text) ∧
      (∀ files' pages, files'.Perm files → pages.Perm (pageTable (sortFiles files')) →
        itemsOf (sortFiles files') pages = catalog.map Prod.snd) ∧
      ∀ tree path root entries, FileTree.locate? tree path = some root →
        tree.atPlace? root = some (.directory entries) →
        (contentFiles tree root (.directory entries)).Perm files →
        loadContent tree path = .ok (catalog.map Prod.snd) := by
  have hcatalog : IsCatalog files (entriesOf (sortFiles files) (pageTable (sortFiles files))) :=
    isCatalog_of_perm hnames (List.Perm.refl _) (List.Perm.refl _)
  have hitems (files' : List ContentFile) (pages : List (Text × ContentFile))
      (hfiles : files'.Perm files) (hpages : pages.Perm (pageTable (sortFiles files'))) :
      itemsOf (sortFiles files') pages =
        (entriesOf (sortFiles files) (pageTable (sortFiles files))).map Prod.snd := by
    rw [itemsOf_eq_map_entriesOf, (isCatalog_of_perm hnames hfiles hpages).unique hcatalog]
  refine ⟨_, hcatalog, hcatalog.nodup_files, ?_, fun a ha b hb => hcatalog.kind_eq ha hb, ?_,
    hitems, ?_⟩
  · exact fun f hf name hname htext => hcatalog.exists_mem_of_isDemoOf hnames hf hname htext
  · exact fun f hf name text hpage htext => hcatalog.isShownOnce hnames hf hpage htext
  · intro tree path root entries hroot hdirectory hfiles
    rw [loadContent, hroot]
    simp only [hdirectory]
    rw [contentItems, hitems _ _ hfiles (List.Perm.refl _)]

/-- Two demos with a page beside them, and a page beside a demo that cannot be read. -/
theorem exists_catalog_hooks :
    let files : List ContentFile :=
      [⟨"hooks.md".toList, some "Hooks".toList⟩, ⟨"hooks.demo.tsx".toList, some "useState".toList⟩,
        ⟨"hooks.demo.jsx".toList, some "useRef".toList⟩, ⟨"grid.demo.html".toList, none⟩,
        ⟨"grid.md".toList, some "Grid".toList⟩, ⟨"notes.md".toList, none⟩]
    let items : List Item :=
      [{ name := "grid".toList, kind := .markdown, markdown := some "Grid".toList },
        { name := "hooks".toList, kind := .demo, markdown := some "Hooks".toList,
          rawContent := some "useRef".toList },
        { name := "hooks".toList, kind := .demo, markdown := some "Hooks".toList,
          rawContent := some "useState".toList }]
    (files.map ContentFile.name).Nodup ∧
      ∃ catalog : List (ContentFile × Item), IsCatalog files catalog ∧
        catalog.map Prod.snd = items ∧
        ∀ files' pages, files'.Perm files → pages.Perm (pageTable (sortFiles files')) →
          itemsOf (sortFiles files') pages = items := by
  intro files items
  have hnames : (files.map ContentFile.name).Nodup := by decide
  have hitems : contentItems files = items := by cbv
  obtain ⟨catalog, hcatalog, -, -, -, -, horder, -⟩ := exists_catalog hnames
  have hcatalogItems : catalog.map Prod.snd = items :=
    (horder files _ (List.Perm.refl _) (List.Perm.refl _)).symm.trans hitems
  refine ⟨hnames, catalog, hcatalog, hcatalogItems, fun files' pages hfiles hpages => ?_⟩
  rw [horder files' pages hfiles hpages, hcatalogItems]

end DocumentSearch
