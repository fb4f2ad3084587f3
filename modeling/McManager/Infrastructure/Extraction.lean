import McManager.Infrastructure.BackupEngine

namespace McManager.BackupEngine

open Framework

/-- The files of an archive, each under its path. -/
abbrev Files := List (List String × List UInt8)

/-- The tree holds these files and the directories on the way to them, and nothing else. -/
structure Holds (tree : Tree) (files : Files) : Prop where
  file : ∀ path content, (path, content) ∈ files → tree path = some (.file content)
  directory : ∀ path below content, below ≠ [] → (path ++ below, content) ∈ files →
    tree path = some .directory
  root : tree [] = some .directory
  only : ∀ path item, tree path = some item →
    (∃ content, item = .file content ∧ (path, content) ∈ files) ∨
      item = .directory ∧ (path = [] ∨
        ∃ below content, below ≠ [] ∧ (path ++ below, content) ∈ files)

theorem holds_emptyDir : Holds emptyDir [] := by
  refine ⟨fun _ _ h => (nomatch h), fun _ _ _ _ h => (nomatch h), rfl, ?_⟩
  intro path item h
  unfold emptyDir at h
  split at h
  · rename_i hroot
    cases h
    exact .inr ⟨rfl, .inl hroot⟩
  · cases h

/-- No file lies below another one, and a path has one content. -/
structure Compatible (files : Files) : Prop where
  apart : ∀ path content below other, below ≠ [] → (path, content) ∈ files →
    (path ++ below, other) ∉ files
  single : ∀ path content other, (path, content) ∈ files → (path, other) ∈ files →
    content = other
  legal : ∀ path content, (path, content) ∈ files → path ≠ [] ∧ ∀ name ∈ path, legalName name = true

theorem split_asPosix {relative : List String} (nonempty : relative ≠ [])
    (legal : ∀ name ∈ relative, legalName name = true) : split (asPosix relative) = relative := by
  unfold split asPosix
  rw [List.splitOn_intercalate]
  · rw [List.map_map]
    have same : (String.ofList ∘ String.toList) = id := by
      funext s
      simp
    rw [same, List.map_id]
  · intro l hl
    obtain ⟨name, hname, rfl⟩ := List.mem_map.mp hl
    have h := legal name hname
    simp only [legalName, Bool.and_eq_true, Bool.not_eq_true', List.contains_eq_mem,
      decide_eq_false_iff_not] at h
    exact h.2
  · simpa using nonempty

private theorem legalName_toList {name : String} (h : legalName name = true) :
    name.toList ≠ [] ∧ '/' ∉ name.toList := by
  simp only [legalName, Bool.and_eq_true, Bool.not_eq_true', List.contains_eq_mem,
    decide_eq_false_iff_not, decide_eq_true_eq] at h
  refine ⟨fun hnil => h.1.1.1 ?_, h.2⟩
  exact String.toList_inj.mp (hnil.trans String.toList_empty.symm)

/-- A file is no directory to the archive: its name does not end in a slash. -/
theorem asPosix_getLast {relative : List String} (nonempty : relative ≠ [])
    (legal : ∀ name ∈ relative, legalName name = true) :
    asPosix relative ≠ [] ∧ (asPosix relative).getLast? ≠ some '/' := by
  induction relative with
  | nil => exact absurd rfl nonempty
  | cons name rest ih =>
    obtain ⟨hname, hslash⟩ := legalName_toList (legal name List.mem_cons_self)
    cases rest with
    | nil =>
      have same : asPosix [name] = name.toList := by simp [asPosix]
      rw [same]
      exact ⟨hname, fun h => hslash (List.mem_of_getLast? h)⟩
    | cons next rest =>
      obtain ⟨hne, hlast⟩ := ih (by simp) fun n hn => legal n (List.mem_cons_of_mem _ hn)
      have same : asPosix (name :: next :: rest) =
          name.toList ++ '/' :: asPosix (next :: rest) := by
        simp [asPosix, List.intercalate_cons_cons]
      rw [same]
      refine ⟨by simp, ?_⟩
      rw [List.getLast?_append_of_ne_nil _ (by simp), List.getLast?_cons_of_ne_nil hne]
      exact hlast

theorem parts_asPosix {relative : List String} (nonempty : relative ≠ [])
    (legal : ∀ name ∈ relative, legalName name = true) :
    (split (asPosix relative)).filter (fun part => part ≠ "" && part ≠ "." && part ≠ "..") =
      relative := by
  rw [split_asPosix nonempty legal, List.filter_eq_self]
  intro name hname
  have h := legal name hname
  simp only [legalName, Bool.and_eq_true] at h
  simpa using h.1

/-- On the way to a file that is not there yet the directories are added. -/
theorem makedirs_ok (parts : List String) {tree : Tree} {path : Path}
    (free : ∀ a content, a ≠ [] → a <+: parts → tree (path ++ a) ≠ some (.file content)) :
    ∃ tree', makedirs tree path parts = .ok tree' ∧
      (∀ a, a ≠ [] → a <+: parts → tree' (path ++ a) = some .directory) ∧
      ∀ q, (∀ a, a ≠ [] → a <+: parts → q ≠ path ++ a) → tree' q = tree q := by
  induction parts generalizing tree path with
  | nil =>
    refine ⟨tree, rfl, ?_, fun q _ => rfl⟩
    intro a ha hprefix
    exact absurd (List.prefix_nil.mp hprefix) ha
  | cons part rest ih =>
    have deeper : ∀ {a : List String}, a <+: rest → part :: a <+: part :: rest :=
      fun h => List.cons_prefix_cons.mpr ⟨rfl, h⟩
    have longer : ∀ a : List String, path ++ part :: a = (path ++ [part]) ++ a := by simp
    have first : ∀ content, tree (path ++ [part]) ≠ some (.file content) :=
      fun content => free [part] content (by simp) (deeper (List.nil_prefix))
    -- The first part is a directory once it has been made.
    have onward : ∀ tree₁ : Tree, tree₁ (path ++ [part]) = some .directory →
        (∀ q, q ≠ path ++ [part] → tree₁ q = tree q) →
        ∃ tree', makedirs tree₁ (path ++ [part]) rest = .ok tree' ∧
          (∀ a, a ≠ [] → a <+: part :: rest → tree' (path ++ a) = some .directory) ∧
          ∀ q, (∀ a, a ≠ [] → a <+: part :: rest → q ≠ path ++ a) → tree' q = tree q := by
      intro tree₁ hmade hsame
      have hfree : ∀ a content, a ≠ [] → a <+: rest →
          tree₁ ((path ++ [part]) ++ a) ≠ some (.file content) := by
        intro a content ha hprefix
        have hother : (path ++ [part]) ++ a ≠ path ++ [part] := by simpa using ha
        rw [hsame _ hother, ← longer]
        exact free (part :: a) content (by simp) (deeper hprefix)
      obtain ⟨tree', hok, hdirs, hrest⟩ := ih hfree
      refine ⟨tree', hok, ?_, ?_⟩
      · intro a ha hprefix
        cases a with
        | nil => exact absurd rfl ha
        | cons name a =>
          obtain ⟨rfl, htail⟩ := List.cons_prefix_cons.mp hprefix
          rw [longer]
          by_cases hnil : a = []
          · subst hnil
            rw [List.append_nil, hrest, hmade]
            intro a ha _ heq
            exact ha (List.append_right_eq_self.mp heq.symm)
          · exact hdirs a hnil htail
      · intro q hq
        rw [hrest q, hsame q]
        · exact hq [part] (by simp) (deeper (List.nil_prefix))
        · intro a ha hprefix
          rw [← longer]
          exact hq (part :: a) (by simp) (deeper hprefix)
    unfold makedirs
    cases hthere : tree (path ++ [part]) with
    | none =>
      refine onward _ (by simp [place]) fun q hq => ?_
      simp [place, hq]
    | some item =>
      cases item with
      | directory => exact onward tree hthere fun _ _ => rfl
      | file content => exact absurd hthere (first content)

/-- One file more is extracted. -/
theorem extractMember_ok {tree : Tree} {done all : Files} {path : List String}
    {content : List UInt8} (compatible : Compatible all) (sub : done ⊆ all)
    (mem : (path, content) ∈ all) (holds : Holds tree done) :
    ∃ tree', extractMember tree ⟨asPosix path, content⟩ = .ok tree' ∧
      Holds tree' (done ++ [(path, content)]) := by
  obtain ⟨nonempty, legal⟩ := compatible.legal path content mem
  have hlast : (asPosix path).getLast? ≠ some '/' := (asPosix_getLast nonempty legal).2
  have shorter : ∀ a, a <+: path.dropLast → ∃ below, below ≠ [] ∧ path = a ++ below := by
    rintro a ⟨between, hbetween⟩
    refine ⟨between ++ [path.getLast nonempty], by simp, ?_⟩
    rw [← List.append_assoc, hbetween, List.dropLast_append_getLast]
  have free : ∀ a other, a ≠ [] → a <+: path.dropLast → tree ([] ++ a) ≠ some (.file other) := by
    intro a other _ hprefix hfile
    obtain ⟨below, hbelow, hpath⟩ := shorter a hprefix
    rcases holds.only _ _ hfile with ⟨c, -, hc⟩ | ⟨hc, -⟩
    · exact compatible.apart a c below content hbelow (sub hc) (hpath ▸ mem)
    · cases hc
  obtain ⟨tree₁, hmade, hdirs, hrest⟩ := makedirs_ok path.dropLast free
  simp only [List.nil_append] at hdirs hrest
  have hpath : tree₁ path = tree path := by
    refine hrest path fun a _ hprefix heq => ?_
    obtain ⟨below, hbelow, hlonger⟩ := shorter a hprefix
    exact hbelow (List.append_right_eq_self.mp (hlonger.symm.trans heq))
  have hnodir : tree path ≠ some .directory := by
    intro hdir
    rcases holds.only _ _ hdir with ⟨c, hc, -⟩ | ⟨-, hroot | ⟨below, c, hbelow, hc⟩⟩
    · cases hc
    · exact nonempty hroot
    · exact compatible.apart path content below c hbelow mem (sub hc)
  have hother : ∀ {q}, q ≠ path → place tree₁ path (.file content) q = tree₁ q := by
    intro q hq
    simp only [place, if_neg hq]
  -- Only the directories on the way differ from the tree before.
  have hsame : ∀ {q}, (∀ below, below ≠ [] → path ≠ q ++ below) ∨ q = [] → tree₁ q = tree q := by
    intro q hq
    refine hrest q fun a ha hprefix heq => ?_
    subst heq
    rcases hq with hq | hq
    · obtain ⟨below, hbelow, hlonger⟩ := shorter q hprefix
      exact hq below hbelow hlonger
    · exact ha hq
  have hway : ∀ {q below}, q ≠ [] → below ≠ [] → path = q ++ below →
      tree₁ q = some .directory := by
    intro q below hq hbelow heq
    refine hdirs q hq ⟨below.dropLast, ?_⟩
    rw [heq, List.dropLast_append_of_ne_nil hbelow]
  refine ⟨place tree₁ path (.file content), ?_, ?_, ?_, ?_, ?_⟩
  · unfold extractMember
    rw [parts_asPosix nonempty legal]
    dsimp only
    rw [if_neg hlast, hmade]
    dsimp only
    rw [hpath]
    split
    · contradiction
    · rfl
  · intro q c hq
    by_cases hsamepath : q = path
    · subst hsamepath
      have hc : (q, c) ∈ all := by
        rcases List.mem_append.mp hq with h | h
        · exact sub h
        · cases List.mem_singleton.mp h
          exact mem
      simp only [place, if_true, compatible.single q content c mem hc]
    · have hdone : (q, c) ∈ done := by
        rcases List.mem_append.mp hq with h | h
        · exact h
        · cases List.mem_singleton.mp h
          exact absurd rfl hsamepath
      rw [hother hsamepath, hsame, holds.file q c hdone]
      refine .inl fun below hbelow heq => ?_
      exact compatible.apart q c below content hbelow (sub hdone) (heq ▸ mem)
  · intro q below c hbelow hq
    by_cases hroot : q = []
    · subst hroot
      rw [hother (Ne.symm nonempty), hsame (.inr rfl), holds.root]
    rcases List.mem_append.mp hq with h | h
    · have hne : q ≠ path := by
        intro heq
        subst heq
        exact compatible.apart q content below c hbelow mem (sub h)
      rw [hother hne]
      by_cases hon : ∃ rest, rest ≠ [] ∧ path = q ++ rest
      · obtain ⟨rest, hrest, heq⟩ := hon
        exact hway hroot hrest heq
      · rw [hsame (.inl fun rest hrest heq => hon ⟨rest, hrest, heq⟩)]
        exact holds.directory q below c hbelow h
    · have heq : path = q ++ below := (congrArg Prod.fst (List.mem_singleton.mp h)).symm
      have hne : q ≠ path := fun h => hbelow (List.append_right_eq_self.mp (h.trans heq).symm)
      rw [hother hne]
      exact hway hroot hbelow heq
  · rw [hother (Ne.symm nonempty), hsame (.inr rfl), holds.root]
  · intro q item hq
    by_cases hsamepath : q = path
    · subst hsamepath
      simp only [place, if_true, Option.some.injEq] at hq
      exact .inl ⟨content, hq.symm, List.mem_append_right _ (List.mem_singleton.mpr rfl)⟩
    rw [hother hsamepath] at hq
    by_cases hon : q ≠ [] ∧ ∃ rest, rest ≠ [] ∧ path = q ++ rest
    · obtain ⟨hroot, rest, hbelow, heq⟩ := hon
      rw [hway hroot hbelow heq, Option.some.injEq] at hq
      refine .inr ⟨hq.symm, .inr ⟨rest, content, hbelow, ?_⟩⟩
      exact List.mem_append_right _ (List.mem_singleton.mpr (by rw [heq]))
    · rw [hsame] at hq
      · rcases holds.only q item hq with ⟨c, hc, h⟩ | ⟨hc, h | ⟨below, c, hbelow, h⟩⟩
        · exact .inl ⟨c, hc, List.mem_append_left _ h⟩
        · exact .inr ⟨hc, .inl h⟩
        · exact .inr ⟨hc, .inr ⟨below, c, hbelow, List.mem_append_left _ h⟩⟩
      · by_cases hroot : q = []
        · exact .inr hroot
        · exact .inl fun rest hrest heq => hon ⟨hroot, rest, hrest, heq⟩

/-- The members that store these files. -/
def Files.members (files : Files) : List Member :=
  files.map fun f => ⟨asPosix f.1, f.2⟩

/-- Extraction goes through: a tree that holds some of the files comes to hold the others too. -/
theorem extractAll_ok (files : Files) {tree : Tree} {done all : Files}
    (compatible : Compatible all) (sub : done ++ files ⊆ all) (holds : Holds tree done) :
    ∃ tree', extractAll tree files.members = .ok tree' ∧ Holds tree' (done ++ files) := by
  induction files generalizing tree done with
  | nil => exact ⟨tree, rfl, by simpa using holds⟩
  | cons f files ih =>
    have hmem : (f.1, f.2) ∈ all := sub (List.mem_append_right _ List.mem_cons_self)
    have hdone : done ⊆ all := fun g hg => sub (List.mem_append_left _ hg)
    obtain ⟨tree₁, hone, hholds⟩ := extractMember_ok compatible hdone hmem holds
    have hsub : (done ++ [f]) ++ files ⊆ all := by simpa using sub
    obtain ⟨tree', hrest, hall⟩ := ih hsub hholds
    refine ⟨tree', ?_, by simpa using hall⟩
    rw [Files.members, List.map_cons, extractAll, hone]
    exact hrest

/-- A legal name never leads out of the directory. -/
theorem normalize_legal (relative : List String) {directory : Path}
    (legal : ∀ name ∈ relative, legalName name = true) :
    normalize directory relative = directory ++ relative := by
  induction relative generalizing directory with
  | nil => simp [Framework.normalize]
  | cons name rest ih =>
    have hname := legal name List.mem_cons_self
    simp only [legalName, Bool.and_eq_true, decide_eq_true_eq] at hname
    obtain ⟨⟨⟨hempty, hdot⟩, hup⟩, -⟩ := hname
    rw [Framework.normalize, if_neg (by simp [hempty, hdot]), if_neg hup,
      ih fun n hn => legal n (List.mem_cons_of_mem _ hn), List.append_assoc,
      List.singleton_append]

theorem isWithin_member {target : Path} {relative : List String} (nonempty : relative ≠ [])
    (legal : ∀ name ∈ relative, legalName name = true) :
    isWithin (normalize target (split (asPosix relative))) target = true := by
  rw [split_asPosix nonempty legal, normalize_legal _ legal, isWithin,
    List.isPrefixOf_iff_prefix]
  exact List.prefix_append _ _

/-- The archive of compatible files extracts to a tree that holds exactly them. -/
theorem extractArchive_ok {host : Host} (target : Path) {files : Files}
    (compatible : Compatible files)
    (valid : ∀ f ∈ files, validMemberPath host (asPosix f.1) = true) :
    ∃ tree, extractArchive host target files.members = .ok tree ∧ Holds tree files := by
  have hall : (files.members.all fun m => validMemberPath host m.filename &&
      isWithin (normalize target (split m.filename)) target) = true := by
    rw [List.all_eq_true]
    intro m hm
    obtain ⟨f, hf, rfl⟩ := List.mem_map.mp hm
    obtain ⟨nonempty, legal⟩ := compatible.legal f.1 f.2 hf
    rw [valid f hf, isWithin_member nonempty legal, Bool.and_self]
  obtain ⟨tree, hok, hholds⟩ := extractAll_ok files compatible (List.Subset.refl _)
    holds_emptyDir
  exact ⟨tree, by rw [extractArchive, if_pos hall, hok], hholds⟩

end McManager.BackupEngine
