import ApiSurface.CommandLine.Run
import ApiSurface.Proofs.Text.Runs
import Mathlib.Data.List.Basic

/-!
# Writing files

What a run writes goes to a list of paths, one after the other.
-/

namespace ApiSurface

namespace Files

/-! ### Paths and locations -/

/-- The location that a name leads to from a folder. -/
def Location.child (l : Location) (name : String) : Location :=
  if name = ".." then l.parent else l ++ [name]

namespace Path

/-- The location that a path leads to if it leads anywhere. -/
def location (p : Path) : Location :=
  p.parts.foldl Location.child (if p.root = "" then [] else [p.root])

theorem ofString_of_noSlash {s : String} (hs : '/' ∉ s.toList) (hne : s ≠ "") (hdot : s ≠ ".") :
    ofString s = ⟨"", [s]⟩ := by
  have hroot : rootOf s.toList = "" := by
    unfold rootOf
    split <;> simp_all
  have hruns : Text.runs (· ≠ '/') s.toList = [s.toList] := by
    refine Text.runs_of_all (fun c hc => ?_) (fun h => hne (String.toList_inj.mp h))
    exact decide_eq_true fun heq => hs (heq ▸ hc)
  unfold ofString
  simp only [hroot, hruns, List.map_cons, List.map_nil, String.ofList_toList]
  simp [hdot]

end Path

namespace Tree

/-- **Names lead to one location**, if they lead anywhere: the tree decides only whether they do. -/
theorem walk_eq {t : Tree} {l l' : Location} {names : List String} (h : t.walk l names = .ok l') :
    l' = names.foldl Location.child l := by
  induction names generalizing l with
  | nil => exact (Except.ok.inj h).symm
  | cons name names ih =>
    unfold walk at h
    cases hget : t.get? l with
    | none => simp [hget] at h
    | some e =>
      cases e with
      | file bytes => simp [hget] at h
      | folder =>
        simp only [hget] at h
        split at h
        · cases h
        · exact ih h

theorem locate_eq {t : Tree} {p : Path} {l : Location} (h : t.locate p = .ok l) :
    l = p.location := by
  unfold locate at h
  split at h
  · cases h
  · split at h
    · cases h
    · exact walk_eq h

/-- **A text that is written** can be encoded. -/
theorem writeText_ok_iff {t t' : Tree} {p : Path} {text : String} :
    t.writeText p text = (t', none) ↔
      ∃ s, Text.release text = .ok s ∧ t.write p s.toUTF8 = .ok t' := by
  unfold writeText
  cases Text.release text with
  | error fault => cases hwrite : t.write p .empty <;> simp [hwrite]
  | ok s => cases hwrite : t.write p s.toUTF8 <;> simp only [hwrite, Except.ok.injEq,
      exists_eq_left', Prod.mk.injEq, reduceCtorEq, and_false, and_true]

/-- **A write that is made** puts a file at the location of its path, which is no folder. -/
theorem write_ok_iff {t t' : Tree} {p : Path} {bytes : ByteArray} :
    t.write p bytes = .ok t' ↔ t.locate p = .ok p.location ∧ t.get? p.location ≠ some .folder ∧
      t' = t.put p.location (.file bytes) := by
  unfold write find
  constructor
  · intro h
    cases hloc : t.locate p with
    | error refusal => simp [hloc, bind, Except.bind] at h
    | ok l =>
      obtain rfl := locate_eq hloc
      simp only [hloc, bind, Except.bind, pure, Except.pure] at h
      cases hget : t.get? p.location with
      | none =>
        simp only [hget] at h
        exact ⟨rfl, by simp, (Except.ok.inj h).symm⟩
      | some e =>
        cases e with
        | folder => simp [hget, throw, throwThe, MonadExceptOf.throw] at h
        | file bytes' =>
          simp only [hget] at h
          exact ⟨rfl, by simp, (Except.ok.inj h).symm⟩
  · rintro ⟨hloc, hne, rfl⟩
    simp only [hloc, bind, Except.bind, pure, Except.pure]

theorem lookup_filter_ne {l l' : Location} (h : l' ≠ l) (es : List (Location × Entry)) :
    (es.filter (·.1 ≠ l)).lookup l' = es.lookup l' := by
  induction es with
  | nil => rfl
  | cons e es ih =>
    by_cases he : e.1 = l
    · have hb : (l' == e.1) = false := by simpa [he] using h
      rw [List.filter_cons_of_neg (by simpa using he), ih, List.lookup_cons, hb]
    · rw [List.filter_cons_of_pos (by simpa using he), List.lookup_cons, List.lookup_cons, ih]

theorem get?_put {t : Tree} {l : Location} (h : t.get? l ≠ some .folder) (e : Entry)
    (l' : Location) : (t.put l e).get? l' = if l' = l then some e else t.get? l' := by
  unfold get? put
  by_cases hl : l' = l
  · have hplain : (l.isAround || l.isRoot) = false := by
      refine Bool.eq_false_iff.mpr fun hspecial => h ?_
      exact if_pos hspecial
    simp [hl, hplain]
  · have hb : (l' == l) = false := by simpa using hl
    simp only [List.lookup_cons, hb, lookup_filter_ne hl, if_neg hl]

/-- Two trees have the same folders. -/
def SameFolders (t t' : Tree) : Prop := ∀ l, t.get? l = some .folder ↔ t'.get? l = some .folder

theorem sameFolders_put {t : Tree} {l : Location} (h : t.get? l ≠ some .folder)
    (bytes : ByteArray) : SameFolders t (t.put l (.file bytes)) := by
  intro l'
  rw [get?_put h]
  by_cases hl : l' = l
  · subst hl
    simp [h]
  · rw [if_neg hl]

/-- **Only folders lead on**: names lead to the same location in trees with the same folders. -/
theorem SameFolders.walk {t t' : Tree} (h : SameFolders t t') {l l' : Location}
    {names : List String} (hw : t.walk l names = .ok l') : t'.walk l names = .ok l' := by
  induction names generalizing l with
  | nil => exact hw
  | cons name names ih =>
    unfold Tree.walk at hw ⊢
    cases hget : t.get? l with
    | none => simp [hget] at hw
    | some e =>
      cases e with
      | file bytes => simp [hget] at hw
      | folder =>
        simp only [hget] at hw
        simp only [(h l).mp hget]
        split at hw
        · cases hw
        · rename_i hlength
          rw [if_neg hlength]
          exact ih hw

theorem SameFolders.locate {t t' : Tree} (h : SameFolders t t') {p : Path} {l : Location}
    (hl : t.locate p = .ok l) : t'.locate p = .ok l := by
  unfold Tree.locate at hl ⊢
  split at hl
  · cases hl
  · split at hl
    · cases hl
    · rename_i hlength
      rw [if_neg hlength]
      exact h.walk hl

/-- A path leads to a file that holds a text. -/
def Holds (t : Tree) (p : Path) (text : String) : Prop :=
  ∃ s, Text.release text = .ok s ∧ t.read p = .ok s.toUTF8

end Tree

end Files

/-- The location of the file of a declaration in a folder. -/
def fileLocation (folder : Files.Path) (d : Declaration) : Files.Location :=
  (folder.join d.fileName).location

/-- **A name without slashes** is the name of a file in the folder itself. -/
theorem fileLocation_eq {folder : Files.Path} {d : Declaration} (h : '/' ∉ d.name.toList) :
    fileLocation folder d = folder.location ++ [d.fileName] := by
  have hslash : '/' ∉ d.fileName.toList := by
    unfold Declaration.fileName
    rw [String.toList_append, List.mem_append]
    rintro (hmem | hmem)
    · exact h hmem
    · revert hmem
      decide
  have hlength : 3 ≤ d.fileName.toList.length := by
    unfold Declaration.fileName
    rw [String.toList_append, List.length_append]
    exact Nat.le_add_left 3 _
  have hne : ∀ s : String, s.toList.length < 3 → d.fileName ≠ s := by
    rintro s hs rfl
    omega
  unfold fileLocation Files.Path.join
  rw [Files.Path.ofString_of_noSlash hslash (hne _ (by decide)) (hne _ (by decide))]
  simp only [ne_eq, not_true_eq_false, if_false, Files.Path.location, List.foldl_append]
  exact if_neg (hne _ (by decide))

namespace CommandLine

open Files (Path Tree Location)

/-! ### Steps -/

/-- The text of the last file at a location, of files that are written one after the other. -/
def lastText (files : List (Path × String)) (l : Location) : Option String :=
  (files.reverse.find? (·.1.location = l)).map (·.2)

theorem lastText_cons (file : Path × String) (files : List (Path × String)) (l : Location) :
    lastText (file :: files) l =
      (lastText files l).or (if file.1.location = l then some file.2 else none) := by
  unfold lastText
  rw [List.reverse_cons, List.find?_append, Option.map_or]
  by_cases hl : file.1.location = l <;> simp [hl]

/-- The last of the files at a location is the one that counts. -/
theorem lastText_of_last {files before after : List (Path × String)} {file : Path × String}
    (h : files = before ++ file :: after)
    (hlast : ∀ later ∈ after, later.1.location ≠ file.1.location) :
    lastText files file.1.location = some file.2 := by
  have hafter : after.reverse.find? (·.1.location = file.1.location) = none := by
    rw [List.find?_eq_none]
    intro later hmem
    simpa using hlast later (List.mem_reverse.mp hmem)
  unfold lastText
  rw [h, List.reverse_append, List.reverse_cons, List.append_assoc, List.find?_append, hafter]
  simp

/-- What files written to a tree make of it: each location holds the last text written there, or what
it held before, and the path of each file leads to its location. -/
structure Filled (t t' : Tree) (files : List (Path × String)) : Prop where
  located : ∀ file ∈ files, t'.locate file.1 = .ok file.1.location
  held : ∀ l text, lastText files l = some text →
    ∃ s, Text.release text = .ok s ∧ t'.get? l = some (.file s.toUTF8)
  kept : ∀ l, lastText files l = none → t'.get? l = t.get? l
  folders : t.SameFolders t'

/-- **Writes that are all made** fill the tree. -/
theorem filled_of_perform {t : Tree} {files : List (Path × String)} {rest : List Step}
    (h : (perform t (files.map (fun file => .write file.1 file.2) ++ rest)).refused = none) :
    ∃ t', Filled t t' files ∧
      perform t (files.map (fun file => .write file.1 file.2) ++ rest) = perform t' rest := by
  induction files generalizing t with
  | nil => exact ⟨t, ⟨by simp, nofun, fun l _ => rfl, fun l => Iff.rfl⟩, rfl⟩
  | cons file files ih =>
    rw [List.map_cons, List.cons_append, perform] at h ⊢
    rcases hwrite : t.writeText file.1 file.2 with ⟨t₁, refused⟩
    cases refused with
    | some refusal =>
      rw [hwrite] at h
      cases h
    | none =>
      simp only [hwrite] at h ⊢
      obtain ⟨s, hs, hwritten⟩ := Tree.writeText_ok_iff.mp hwrite
      obtain ⟨hloc, hplain, rfl⟩ := Tree.write_ok_iff.mp hwritten
      obtain ⟨t', hfilled, hrest⟩ := ih h
      have hfolders : t.SameFolders t' := fun l =>
        (Tree.sameFolders_put hplain _ l).trans (hfilled.folders l)
      refine ⟨t', ⟨?_, fun l text hlast => ?_, fun l hlast => ?_, hfolders⟩, hrest⟩
      · intro file' hmem
        rcases List.mem_cons.mp hmem with rfl | hmem
        · exact hfolders.locate hloc
        · exact hfilled.located file' hmem
      · rw [lastText_cons, Option.or_eq_some_iff] at hlast
        rcases hlast with hlater | ⟨hnone, hown⟩
        · exact hfilled.held l text hlater
        · obtain ⟨rfl, htext⟩ := Option.ite_none_right_eq_some.mp hown
          obtain rfl := Option.some.inj htext
          rw [hfilled.kept _ hnone, Tree.get?_put hplain, if_pos rfl]
          exact ⟨s, hs, rfl⟩
      · rw [lastText_cons, Option.or_eq_none_iff] at hlast
        obtain ⟨hnone, hown⟩ := hlast
        have hne : l ≠ file.1.location := by
          rintro rfl
          rw [if_pos rfl] at hown
          cases hown
        rw [hfilled.kept l hnone, Tree.get?_put hplain, if_neg hne]

/-- **The last file** that was written at a location is the one that its path leads to. -/
theorem Filled.read_last {t t' : Tree} {files before after : List (Path × String)}
    {file : Path × String} (h : Filled t t' files) (hfiles : files = before ++ file :: after)
    (hlast : ∀ later ∈ after, later.1.location ≠ file.1.location) :
    t'.Holds file.1 file.2 := by
  have hloc := h.located file (by simp [hfiles])
  obtain ⟨s, hs, hheld⟩ := h.held _ _ (lastText_of_last hfiles hlast)
  refine ⟨s, hs, ?_⟩
  unfold Tree.read Tree.find
  simp only [hloc, hheld, bind, Except.bind, pure, Except.pure]

theorem perform_reports (t : Tree) (messages : List String) :
    perform t (messages.map .report) = ⟨t, messages, none⟩ := by
  induction messages with
  | nil => rfl
  | cons message messages ih => rw [List.map_cons, perform, ih]

/-- The files of some declarations in a folder, with their texts. -/
def filesOf (settings : Settings) (folder : Path) (ds : List Declaration) : List (Path × String) :=
  ds.map fun d => (folder.join d.fileName, fileText settings d.lines)

theorem groupSteps_eq (settings : Settings) (verbose : Bool) (folder : Path)
    (ds : List Declaration) : ∃ messages : List String, groupSteps settings verbose folder ds =
      .ensureFolder folder :: ((filesOf settings folder ds).map (fun file => .write file.1 file.2) ++
        messages.map .report) := by
  cases verbose with
  | false => exact ⟨[], rfl⟩
  | true =>
    refine ⟨(filesOf settings folder ds).map fun file => "Wrote " ++ file.1.toString, ?_⟩
    rw [List.map_map]
    rfl

/-- **A group that is written** without a refusal fills its folder. -/
theorem filled_of_groupSteps {settings : Settings} {verbose : Bool} {folder : Path}
    {ds : List Declaration} {t : Tree}
    (h : (perform t (groupSteps settings verbose folder ds)).refused = none) :
    ∃ t₀, t.ensureFolders folder = (t₀, none) ∧
      Filled t₀ (perform t (groupSteps settings verbose folder ds)).tree
        (filesOf settings folder ds) := by
  obtain ⟨messages, hsteps⟩ := groupSteps_eq settings verbose folder ds
  rw [hsteps, perform] at h ⊢
  cases hfolder : t.ensureFolders folder with
  | mk t₀ refused =>
    cases refused with
    | some refused =>
      rw [hfolder] at h
      cases h
    | none =>
      simp only [hfolder] at h ⊢
      obtain ⟨t', hfilled, hrest⟩ := filled_of_perform h
      rw [hrest, perform_reports]
      exact ⟨t₀, rfl, hfilled⟩

end CommandLine

end ApiSurface
