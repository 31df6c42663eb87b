import ApiSurface.Proofs.CommandLine.Printing
import ApiSurface.Proofs.Fallible
import ApiSurface.Proofs.Files.Writing
import ApiSurface.Yaml.Document

/-!
# What a run leaves as it is

A run generates everything before it prints or writes anything, so a run that fails leaves no part of
its results behind, unless printing or writing them is what fails.
-/

namespace ApiSurface

namespace Files.Tree

/-! ### Making folders -/

/-- Everything that one tree holds is held by another as well. -/
def Keeps (t t' : Tree) : Prop := ∀ l e, t.get? l = some e → t'.get? l = some e

variable {t t' t'' : Tree} {p : Path}

theorem Keeps.refl (t : Tree) : Keeps t t := fun _ _ h => h

theorem Keeps.trans (h : Keeps t t') (h' : Keeps t' t'') : Keeps t t'' :=
  fun l e hl => h' l e (h l e hl)

theorem keeps_of_makeFolder (h : t.makeFolder p = .ok t') : Keeps t t' := by
  unfold makeFolder find at h
  cases hloc : t.locate p with
  | error refusal =>
    simp only [hloc, bind, Except.bind] at h
    cases h
  | ok l =>
    simp only [hloc, bind, Except.bind, pure, Except.pure] at h
    cases hget : t.get? l with
    | some e =>
      simp only [hget] at h
      cases h
    | none =>
      simp only [hget] at h
      obtain rfl := Except.ok.inj h
      have hplain : t.get? l ≠ some .folder := by
        rw [hget]
        nofun
      intro l' e hl'
      have hne : l' ≠ l := by
        rintro rfl
        rw [hget] at hl'
        cases hl'
      rw [get?_put hplain, if_neg hne]
      exact hl'

theorem keeps_of_ensureFolder (h : t.ensureFolder p = .ok t') : Keeps t t' := by
  unfold ensureFolder at h
  split at h
  · next t'' hmake =>
    obtain rfl := Except.ok.inj h
    exact keeps_of_makeFolder hmake
  · split at h
    · obtain rfl := Except.ok.inj h
      exact Keeps.refl t
    · cases h

theorem keeps_ensureFoldersFrom (root : String) (names : List String) (t : Tree) :
    Keeps t (ensureFoldersFrom root names t).1 := by
  induction names generalizing t with
  | nil =>
    unfold ensureFoldersFrom
    simp only
    split
    · next hfolder => exact keeps_of_ensureFolder hfolder
    · exact Keeps.refl t
  | cons name names ih =>
    unfold ensureFoldersFrom
    simp only
    split
    · next hfolder => exact keeps_of_ensureFolder hfolder
    · -- the folder it lies in is made first
      have houter := ih t
      split
      · next heq =>
        rw [heq] at houter
        exact houter
      · next heq =>
        rw [heq] at houter
        split
        · next hfolder => exact houter.trans (keeps_of_ensureFolder hfolder)
        · exact houter
    · exact Keeps.refl t

/-- **Making folders** leaves everything that is there. -/
theorem keeps_ensureFolders (t : Tree) (p : Path) : Keeps t (t.ensureFolders p).1 :=
  keeps_ensureFoldersFrom p.root p.parts.reverse t

/-- A file that is written leaves the folders and all other files. -/
theorem get?_of_write {bytes : ByteArray} {l : Location} {e : Entry} (hwrite : t.write p bytes = .ok t')
    (h : t.get? l = some e) (hl : e = .folder ∨ p.location ≠ l) : t'.get? l = some e := by
  obtain ⟨-, hplain, rfl⟩ := write_ok_iff.mp hwrite
  have hne : l ≠ p.location := by
    rintro rfl
    rcases hl with rfl | hl
    · exact hplain h
    · exact hl rfl
  rw [get?_put hplain, if_neg hne]
  exact h

theorem get?_writeText {text : String} {l : Location} {e : Entry} (h : t.get? l = some e)
    (hl : e = .folder ∨ p.location ≠ l) : (t.writeText p text).1.get? l = some e := by
  unfold writeText
  simp only
  split
  · next hwrite => exact get?_of_write hwrite h hl
  · exact h

end Files.Tree

namespace CommandLine

open Files (Path Tree Location Entry)

/-- The location is not that of a file which some steps write. -/
def Spares (steps : List Step) (l : Location) : Prop :=
  ∀ path text, Step.write path text ∈ steps → path.location ≠ l

/-- **Taking steps**, whether or not one of them is refused, leaves every folder and every file that
is not written over. -/
theorem perform_get? {t : Tree} {steps : List Step} {l : Location} {e : Entry}
    (h : t.get? l = some e) (hl : e = .folder ∨ Spares steps l) :
    (perform t steps).tree.get? l = some e := by
  induction steps generalizing t with
  | nil => exact h
  | cons step steps ih =>
    have hlater : e = .folder ∨ Spares steps l :=
      hl.imp_right fun hspares path text hmem => hspares path text (List.mem_cons_of_mem _ hmem)
    cases step with
    | report message => exact ih h hlater
    | ensureFolder folder =>
      have hkept := Tree.keeps_ensureFolders t folder l e h
      rw [perform]
      split
      · next heq =>
        rw [heq] at hkept
        exact ih hkept hlater
      · next heq =>
        rw [heq] at hkept
        exact hkept
    | write path text =>
      have hkept : (t.writeText path text).1.get? l = some e :=
        Tree.get?_writeText h (hl.imp_right fun hspares => hspares path text List.mem_cons_self)
      rw [perform]
      split
      · next heq =>
        rw [heq] at hkept
        exact ih hkept hlater
      · next heq =>
        rw [heq] at hkept
        exact hkept

/-! ### How a run ends -/

variable {yaml : Yaml.Reader} {args : List String} {tree : Tree} {o : Options} {settings : Settings}
  {groups : Groups}

/-- The arguments ask for a run with some options and settings, and the input file yields
declarations in groups. -/
structure Generates (yaml : Yaml.Reader) (args : List String) (tree : Tree) (o : Options)
    (settings : Settings) (groups : Groups) : Prop where
  asked : Options.parse args = .run o
  configured : settingsOf o (fun path => .ofBytes (tree.read path)) = .ok settings
  generated : (generateGroups yaml o settings (Path.ofString (o.inputFile.getD ""))
    (.ofBytes (tree.read (Path.ofString (o.inputFile.getD ""))))).2 = .ok groups

/-- The pieces in which a run prints what it has generated. -/
def piecesOf (settings : Settings) (groups : Groups) : List String :=
  pieces settings (groups.flatMap (·.2))

/-- The ways in which a run ends. -/
inductive Ending (yaml : Yaml.Reader) (args : List String) (tree : Tree) : Outcome → Prop
  | helped (h : Options.parse args = .help) : Ending yaml args tree ⟨.code 0, usage, [], tree⟩
  /-- Before everything is generated. -/
  | halted {status : Status} {lines : List String} (h : status ≠ .code 0) :
    Ending yaml args tree ⟨status, "", lines, tree⟩
  /-- With the pieces printed, up to the first that cannot be encoded. -/
  | printed {o : Options} {settings : Settings} {groups : Groups} {lines : List String}
    {done : Printing} (h : Generates yaml args tree o settings groups)
    (hfolder : o.outputFolder = none) (hdone : printPieces (piecesOf settings groups) = done) :
    Ending yaml args tree ⟨done.status, done.text, lines, tree⟩
  /-- With the steps of writing taken, up to the first that is refused. -/
  | filled {o : Options} {settings : Settings} {groups : Groups} {lines : List String}
    {folder : String} {done : Performance} (h : Generates yaml args tree o settings groups)
    (hfolder : o.outputFolder = some folder)
    (hdone : perform tree (fillSteps settings o.verbose folder groups) = done) :
    Ending yaml args tree ⟨(statusOf folder done.refused).1, "", lines, done.tree⟩

/-- **Every run** ends in one of these ways. -/
theorem ending_run (yaml : Yaml.Reader) (args : List String) (tree : Tree) :
    Ending yaml args tree (run yaml args tree) := by
  unfold run
  cases hasked : Options.parse args with
  | help => exact .helped hasked
  | refused message => exact .halted (by nofun)
  | unreadable fault => exact .halted (by nofun)
  | run o =>
    simp only
    unfold prepare
    cases hsettings : settingsOf o (fun path => .ofBytes (tree.read path)) with
    | error message => exact .halted (by simp)
    | ok settings =>
      simp only
      cases hgroups : (generateGroups yaml o settings (Path.ofString (o.inputFile.getD ""))
          (.ofBytes (tree.read (Path.ofString (o.inputFile.getD ""))))).2 with
      | error fault =>
        cases fault with
        | report report => exact .halted (by simp)
        | missingKey _ | notIterable _ | numeral _ | code _ | nullInPath | encoding _ =>
          exact .halted (by nofun)
      | ok groups =>
        have hgenerates : Generates yaml args tree o settings groups := ⟨hasked, hsettings, hgroups⟩
        cases hfolder : o.outputFolder with
        | none => exact .printed hgenerates hfolder rfl
        | some folder => exact .filled hgenerates hfolder rfl

theorem Generates.run_printed (h : Generates yaml args tree o settings groups)
    (hfolder : o.outputFolder = none) :
    (run yaml args tree).status = (printPieces (piecesOf settings groups)).status ∧
      (run yaml args tree).printed = (printPieces (piecesOf settings groups)).text := by
  unfold run prepare
  simp only [h.asked, h.configured, h.generated, hfolder]
  exact ⟨rfl, rfl⟩

theorem status_ne_code_zero_iff {done : Printing} : done.status ≠ .code 0 ↔ done.fault ≠ none := by
  unfold Printing.status
  cases done.fault <;> simp

/-- Everything is generated, and one of the steps that write it is refused. -/
def FailsWriting (yaml : Yaml.Reader) (args : List String) (tree : Tree) : Prop :=
  ∃ o settings groups folder, Generates yaml args tree o settings groups ∧
    o.outputFolder = some folder ∧
    (perform tree (fillSteps settings o.verbose folder groups)).refused ≠ none

/-- Everything is generated and to be printed, and a half of a character is in one of the pieces, but
not in the first. -/
def PrintsInPart (yaml : Yaml.Reader) (args : List String) (tree : Tree) : Prop :=
  ∃ o settings groups first later, Generates yaml args tree o settings groups ∧
    o.outputFolder = none ∧ piecesOf settings groups = first :: later ∧ ¬ Text.HoldsHalf first ∧
    ∃ piece ∈ later, Text.HoldsHalf piece

/-- The first piece to print is the name of a file. -/
theorem first_ne_empty {ds : List Declaration} {first : String} {later : List String}
    (h : pieces settings ds = first :: later) : first ≠ "" := by
  cases ds with
  | nil => cases h
  | cons d ds =>
    have hfirst : first = "// " ++ d.fileName ++ "\n" := by
      unfold pieces at h
      cases ds with
      | nil => exact (List.cons.inj h).1.symm
      | cons d' ds => exact (List.cons.inj h).1.symm
    rw [hfirst]
    intro hempty
    have hlength := congrArg (·.toList.length) hempty
    simp at hlength

/-- **A run that prints in part** is one that prints something and fails. -/
theorem printsInPart_iff : PrintsInPart yaml args tree ↔
    (run yaml args tree).status ≠ .code 0 ∧ (run yaml args tree).printed ≠ "" := by
  constructor
  · rintro ⟨o, settings, groups, first, later, hgenerates, hfolder, hpieces, hfirst, piece, hmem, hhalf⟩
    obtain ⟨hstatus, hprinted⟩ := hgenerates.run_printed hfolder
    rw [hstatus, hprinted, status_ne_code_zero_iff, hpieces, ne_eq, printPieces_fault_eq_none_iff,
      printPieces_text_ne_empty_iff (first_ne_empty hpieces)]
    exact ⟨fun hnone => hnone piece (List.mem_cons_of_mem _ hmem) hhalf, hfirst⟩
  · rintro ⟨hstatus, hprinted⟩
    have hend := ending_run yaml args tree
    generalize run yaml args tree = ended at hend hstatus hprinted
    cases hend with
    | helped => exact absurd rfl hstatus
    | halted => exact absurd rfl hprinted
    | filled => exact absurd rfl hprinted
    | @printed o settings groups lines done hgenerates hfolder hdone =>
      subst hdone
      rw [status_ne_code_zero_iff, ne_eq, printPieces_fault_eq_none_iff] at hstatus
      simp only [not_forall, not_not] at hstatus
      obtain ⟨piece, hmem, hhalf⟩ := hstatus
      cases hpieces : piecesOf settings groups with
      | nil =>
        rw [hpieces] at hmem
        cases hmem
      | cons first later =>
        rw [hpieces] at hmem hprinted
        have hfirst := (printPieces_text_ne_empty_iff (first_ne_empty hpieces)).mp hprinted
        rcases List.mem_cons.mp hmem with rfl | hmem
        · exact absurd hhalf hfirst
        · exact ⟨o, settings, groups, first, later, hgenerates, hfolder, hpieces, hfirst, piece, hmem,
            hhalf⟩

/-- **What a run leaves behind**, for any reader of YAML, any arguments and any file tree.

* If it ends with another code than 0, or with a fault, then the file tree is as it was, unless writing
  is what fails, and nothing is printed, unless it prints in part.
* If it ends with code 0 and the arguments ask for no output folder, the file tree is as it was.
* It prints nothing, or the help text, or the pieces of all declarations, up to the first with a half of
  a character, where it ends in a fault.
* Folders stay and so do files, however it ends, unless an output folder is asked for and a generated
  file is written over them. -/
theorem run_untouched (yaml : Yaml.Reader) (args : List String) (tree : Tree) :
    ((run yaml args tree).status ≠ .code 0 → ¬ FailsWriting yaml args tree →
      (run yaml args tree).tree = tree ∧
        ((run yaml args tree).printed = "" ↔ ¬ PrintsInPart yaml args tree)) ∧
    ((run yaml args tree).status = .code 0 →
      (∀ o, Options.parse args = .run o → o.outputFolder = none) →
      (run yaml args tree).tree = tree) ∧
    ((run yaml args tree).printed = "" ∨
      (run yaml args tree).tree = tree ∧
        ((Options.parse args = .help ∧ (run yaml args tree).status = .code 0 ∧
          (run yaml args tree).printed = usage) ∨
        ∃ o settings groups, Generates yaml args tree o settings groups ∧ o.outputFolder = none ∧
          (((run yaml args tree).status = .code 0 ∧
            PrintsAll (piecesOf settings groups) (run yaml args tree).printed) ∨
          ∃ fault, (run yaml args tree).status = .uncaught (.encoding fault) ∧
            PrintsUpTo (piecesOf settings groups) (run yaml args tree).printed fault))) ∧
    ∀ l e, tree.get? l = some e →
      (e = .folder ∨ ∀ o settings groups folder, Generates yaml args tree o settings groups →
        o.outputFolder = some folder → Spares (fillSteps settings o.verbose folder groups) l) →
      (run yaml args tree).tree.get? l = some e := by
  have hend := ending_run yaml args tree
  have hpart : PrintsInPart yaml args tree ↔ _ := printsInPart_iff
  generalize run yaml args tree = ended at hend hpart ⊢
  rw [hpart]
  cases hend with
  | helped hhelp =>
    exact ⟨fun hcode => absurd rfl hcode, fun _ _ => rfl, .inr ⟨rfl, .inl ⟨hhelp, rfl, rfl⟩⟩,
      fun l e hl _ => hl⟩
  | halted hcode =>
    exact ⟨fun _ _ => ⟨rfl, by simp⟩, fun _ _ => rfl, .inl rfl, fun l e hl _ => hl⟩
  | @printed o settings groups lines done hgenerates hfolder hdone =>
    refine ⟨fun hcode _ => ⟨rfl, ?_⟩, fun _ _ => rfl,
      .inr ⟨rfl, .inr ⟨o, settings, groups, hgenerates, hfolder, ?_⟩⟩, fun l e hl _ => hl⟩
    · simp [hcode]
    · subst hdone
      unfold Printing.status
      rcases printPieces_cases (piecesOf settings groups) with
        ⟨hnone, hall⟩ | ⟨fault, hfault, hupto⟩
      · rw [hnone]
        exact .inl ⟨rfl, hall⟩
      · rw [hfault]
        exact .inr ⟨fault, rfl, hupto⟩
  | @filled o settings groups lines folder done hgenerates hfolder hdone =>
    subst hdone
    refine ⟨fun hcode hwriting => ?_, fun _ hnone => ?_, .inl rfl, fun l e hl hspares => ?_⟩
    · -- a step is refused, or the code is 0
      refine absurd ⟨o, settings, groups, folder, hgenerates, hfolder, fun hrefused => ?_⟩ hwriting
      refine hcode ?_
      show (statusOf folder _).1 = _
      rw [hrefused]
      rfl
    · have hfolder' := hnone o hgenerates.asked
      rw [hfolder] at hfolder'
      cases hfolder'
    · refine perform_get? hl (hspares.imp_right fun h => ?_)
      exact h o settings groups folder hgenerates hfolder

deriving instance DecidableEq for Status

/-- A folder with an API description without classes. -/
def emptyApi : Tree := ⟨[(["page.json"], .file "[]".toUTF8)]⟩

theorem not_generates_other {o : Options} {settings : Settings} {groups : Groups} :
    ¬ Generates Yaml.read? ["-o", "out", "other.json"] emptyApi o settings groups := by
  rintro ⟨hasked, -, hgenerated⟩
  have hparse : Options.parse ["-o", "out", "other.json"] =
      .run { inputFile := some "other.json", outputFolder := some "out" } := by decide +kernel
  obtain rfl := Request.run.inj (hasked.symm.trans hparse)
  have hpath : Path.ofString "other.json" = ⟨"", ["other.json"]⟩ := by decide +kernel
  have hread : emptyApi.read ⟨"", ["other.json"]⟩ = .error .missing := by rfl
  simp only [Option.getD_some, hpath, hread] at hgenerated
  cases hgenerated

theorem run_untouched_emptyApi :
    (run Yaml.read? ["-o", "out", "other.json"] emptyApi).status = .code 1 ∧
      (run Yaml.read? ["-o", "out", "other.json"] emptyApi).printed = "" ∧
      (run Yaml.read? ["-o", "out", "other.json"] emptyApi).tree = emptyApi ∧
      (run Yaml.read? ["page.json"] emptyApi).status = .code 0 ∧
      (run Yaml.read? ["page.json"] emptyApi).tree = emptyApi := by
  have hcode : (run Yaml.read? ["-o", "out", "other.json"] emptyApi).status = .code 1 := by
    decide +kernel
  have hzero : (run Yaml.read? ["page.json"] emptyApi).status = .code 0 := by decide +kernel
  have hparse : Options.parse ["page.json"] = .run { inputFile := some "page.json" } := by
    decide +kernel
  obtain ⟨htree, hprinted⟩ := (run_untouched Yaml.read? ["-o", "out", "other.json"] emptyApi).1
    (by rw [hcode]; decide) (fun ⟨_, _, _, _, hgenerates, _⟩ => not_generates_other hgenerates)
  have hprinting := (run_untouched Yaml.read? ["page.json"] emptyApi).2.1 hzero (by
    intro o hasked
    obtain rfl := Request.run.inj (hasked.symm.trans hparse)
    rfl)
  exact ⟨hcode, hprinted.mpr (fun ⟨_, _, _, _, _, hgenerates, _⟩ => not_generates_other hgenerates),
    htree, hzero, hprinting⟩

/-- A folder with an API description of two classes, the second of which is named by the first half of
a character. -/
def halfNameApi : Tree :=
  ⟨[(["page.json"], .file "[\x7b\"name\": \"Page\"\x7d, \x7b\"name\": \"\\ud800\"\x7d]".toUTF8)]⟩

theorem generateGroups_halfNameApi :
    (generateGroups Yaml.read? { inputFile := some "page.json" } { toolVersion := "csapi api" }
      (Path.ofString "page.json") (.ofBytes (halfNameApi.read (Path.ofString "page.json")))).2.map
        (fun groups => (groups.flatMap (·.2)).map (·.name)) =
      .ok ["IPage", Text.ofCodes [73, 0xD800]] := by
  decide +kernel

theorem printsInPart_halfNameApi : PrintsInPart Yaml.read? ["page.json"] halfNameApi := by
  obtain ⟨groups, hgroups, hnames⟩ := map_eq_ok_iff.mp generateGroups_halfNameApi
  obtain ⟨d, ds, hds, hd, hrest⟩ := List.map_eq_cons_iff.mp hnames
  obtain ⟨d', ds', rfl, hd', hrest'⟩ := List.map_eq_cons_iff.mp hrest
  obtain rfl := List.map_eq_nil_iff.mp hrest'
  have hparse : Options.parse ["page.json"] = .run { inputFile := some "page.json" } := by
    decide +kernel
  have hpieces : piecesOf { toolVersion := "csapi api" } groups =
      ["// " ++ ("IPage" ++ ".cs") ++ "\n", fileText { toolVersion := "csapi api" } d.lines, "\n",
        "// " ++ (Text.ofCodes [73, 0xD800] ++ ".cs") ++ "\n",
        fileText { toolVersion := "csapi api" } d'.lines] := by
    rw [← hd, ← hd']
    unfold piecesOf
    rw [hds]
    rfl
  refine ⟨_, _, groups, _, _, ⟨hparse, rfl, hgroups⟩, rfl, hpieces, ?_, _,
    List.mem_cons_of_mem _ (List.mem_cons_of_mem _ List.mem_cons_self), ?_⟩
  · unfold Text.HoldsHalf
    decide +kernel
  · unfold Text.HoldsHalf
    decide +kernel

/-- The run prints the declaration of the first class, and ends in a fault at that of the second. -/
theorem run_halfNameApi :
    (run Yaml.read? ["page.json"] halfNameApi).status ≠ .code 0 ∧
      ¬ FailsWriting Yaml.read? ["page.json"] halfNameApi ∧
      (run Yaml.read? ["page.json"] halfNameApi).printed ≠ "" := by
  obtain ⟨hstatus, hprinted⟩ := printsInPart_iff.mp printsInPart_halfNameApi
  refine ⟨hstatus, ?_, hprinted⟩
  rintro ⟨o, settings, groups, folder, hgenerates, hfolder, -⟩
  have hparse : Options.parse ["page.json"] = .run { inputFile := some "page.json" } := by
    decide +kernel
  obtain rfl := Request.run.inj (hgenerates.asked.symm.trans hparse)
  cases hfolder

end CommandLine

end ApiSurface
