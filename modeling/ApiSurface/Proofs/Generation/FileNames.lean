import ApiSurface.Proofs.Files.Writing
import ApiSurface.Proofs.Generation.Emission
import Mathlib.Data.List.Nodup

/-!
# One file for each declaration

A declaration is written to a file of its name.  The registry keeps the names of the entries apart,
but nothing compares them with the names of the interfaces, or these with each other.
-/

namespace ApiSurface

open CommandLine Generation

/-- The names of what a run declares for some classes are kept apart. -/
structure NamesApart (classes : List ApiClass) (g : Generated) : Prop where
  interfaces : ∀ c ∈ classes, ∀ c' ∈ classes,
    Identifier.capitalize c.name = Identifier.capitalize c'.name → c.name = c'.name
  entries : ∀ c ∈ classes, interfaceName c.name ∉ g.synthesized.map (·.1)

/-- Each declaration has a file of its own in a folder, and its text is in it. -/
structure OneFileEach (settings : Settings) (folder : Files.Path) (ds : List Declaration)
    (t : Files.Tree) : Prop where
  apart : (ds.map (fileLocation folder)).Nodup
  holds : ∀ d ∈ ds, t.Holds (folder.join d.fileName) (fileText settings d.lines)

/-! ### Names -/

theorem interfaceName_inj {a b : String} :
    interfaceName a = interfaceName b ↔ Identifier.capitalize a = Identifier.capitalize b := by
  unfold interfaceName
  rw [← String.toList_inj, String.toList_append, String.toList_append, List.append_cancel_left_eq,
    String.toList_inj]

theorem map_eq_map_of_forall₂ {α β γ : Type} {R : α → β → Prop} {f : α → γ} {g : β → γ}
    {as : List α} {bs : List β} (h : List.Forall₂ R as bs) (hfg : ∀ a b, R a b → g b = f a) :
    bs.map g = as.map f := by
  induction h with
  | nil => rfl
  | cons hab _ ih => rw [List.map_cons, List.map_cons, hfg _ _ hab, ih]

theorem Phases.names_eq {settings : Settings} {classes : List ApiClass} {names : ClassNames}
    {qs : List Request} {ds : List Declaration} {v : Visit Declaration}
    (h : Phases settings classes names qs ds v) : (ds ++ v.results).map (·.name) =
      classes.map (fun c => interfaceName c.name) ++ v.registry.keys := by
  have hds : ds.map (·.name) = classes.map fun c => interfaceName c.name :=
    map_eq_map_of_forall₂ h.emits_interfaces fun c d hd => (translate_interface.mp hd.name).2
  have hunits : v.results.map (·.name) = v.registry.keys :=
    map_eq_map_of_forall₂ h.emits_units fun e d hd => hd.name
  rw [List.map_append, hds, hunits]

/-- **The declarations of a run have distinct names** if and only if the names are kept apart. -/
theorem nodup_names_iff {settings : Settings} {classes : List ApiClass} {g : Generated}
    (hnd : (classes.map (·.name)).Nodup) (h : (generate settings classes).outcome = .ok g) :
    (g.declarations.map (·.name)).Nodup ↔ NamesApart classes g := by
  obtain ⟨names, qs, ds, v, hphases, rfl⟩ := generate_ok_iff.mp h
  rw [hphases.names_eq, List.nodup_append, List.nodup_map_iff_inj_on (.of_map _ hnd)]
  constructor
  · rintro ⟨hinterfaces, -, hdisjoint⟩
    refine ⟨fun c hc c' hc' heq => ?_, fun c hc hkey => ?_⟩
    · rw [hinterfaces c hc c' hc' (interfaceName_inj.mpr heq)]
    · exact hdisjoint _ (List.mem_map.mpr ⟨c, hc, rfl⟩) _ hkey rfl
  · rintro ⟨hinterfaces, hentries⟩
    refine ⟨fun c hc c' hc' heq => ?_, hphases.summary.1.nodup, ?_⟩
    · exact List.inj_on_of_nodup_map hnd hc hc'
        (hinterfaces c hc c' hc' (interfaceName_inj.mp heq))
    · rintro name hname _ hkey rfl
      obtain ⟨c, hc, rfl⟩ := List.mem_map.mp hname
      exact hentries c hc hkey

/-! ### Files -/

theorem nodup_fileLocation_iff {folder : Files.Path} {ds : List Declaration}
    (hslash : ∀ d ∈ ds, '/' ∉ d.name.toList) :
    (ds.map (fileLocation folder)).Nodup ↔ (ds.map (·.name)).Nodup := by
  unfold List.Nodup
  rw [List.pairwise_map, List.pairwise_map]
  refine List.Pairwise.iff_of_mem fun {d d'} hd hd' => not_congr ?_
  rw [fileLocation_eq (hslash d hd), fileLocation_eq (hslash d' hd'), List.append_cancel_left_eq,
    List.singleton_inj]
  unfold Declaration.fileName
  rw [← String.toList_inj, String.toList_append, String.toList_append, List.append_cancel_right_eq,
    String.toList_inj]

/-- Of the declarations with one location the last one is in the file. -/
theorem read_of_last {settings : Settings} {folder : Files.Path} {ds before after : List Declaration}
    {d : Declaration} {t t' : Files.Tree} (h : Filled t t' (filesOf settings folder ds))
    (hds : ds = before ++ d :: after)
    (hlast : ∀ later ∈ after, fileLocation folder later ≠ fileLocation folder d) :
    t'.Holds (folder.join d.fileName) (fileText settings d.lines) := by
  have hfiles : filesOf settings folder ds = filesOf settings folder before ++
      (folder.join d.fileName, fileText settings d.lines) :: filesOf settings folder after := by
    rw [hds]
    exact List.map_append
  have hread := h.read_last hfiles fun file hmem => by
    obtain ⟨later, hlater, rfl⟩ := List.mem_map.mp hmem
    exact hlast later hlater
  exact hread

/-- **Declarations that were written have a file each** if and only if their locations are
distinct. -/
theorem oneFileEach_iff {settings : Settings} {folder : Files.Path} {ds : List Declaration}
    {t t' : Files.Tree} (h : Filled t t' (filesOf settings folder ds)) :
    OneFileEach settings folder ds t' ↔ (ds.map (fileLocation folder)).Nodup := by
  refine ⟨fun hone => hone.apart, fun hnd => ⟨hnd, fun d hd => ?_⟩⟩
  obtain ⟨before, after, hds⟩ := List.append_of_mem hd
  refine read_of_last h hds fun later hlater heq => ?_
  rw [hds, List.map_append, List.map_cons, List.nodup_append] at hnd
  have hnew := (List.nodup_cons.mp hnd.2.1).1
  exact hnew (heq ▸ List.mem_map_of_mem hlater)

/-- **When the declarations of a run have a file each.**  For classes with distinct names, the
declarations of a run have distinct names if and only if capitalizing merges no two class names and
no entry has the name of an interface.  Once they are written to a folder without a refusal, a file
holds the last of the declarations that belong in it; if there are no slashes in the names, each
declaration has a file of its own under the same condition, and otherwise some are lost. -/
theorem generate_oneFileEach_iff {settings : Settings} {classes : List ApiClass} {g : Generated}
    (hnd : (classes.map (·.name)).Nodup) (h : (generate settings classes).outcome = .ok g) :
    ((g.declarations.map (·.name)).Nodup ↔ NamesApart classes g) ∧
    ∀ (verbose : Bool) (folder : Files.Path) (t : Files.Tree) (done : Performance),
      perform t (groupSteps settings verbose folder g.declarations) = done → done.refused = none →
      (∀ before d after, g.declarations = before ++ d :: after →
        (∀ later ∈ after, fileLocation folder later ≠ fileLocation folder d) →
        done.tree.Holds (folder.join d.fileName) (fileText settings d.lines)) ∧
      ((∀ d ∈ g.declarations, '/' ∉ d.name.toList) →
        (OneFileEach settings folder g.declarations done.tree ↔ NamesApart classes g)) := by
  have hnames := nodup_names_iff hnd h
  refine ⟨hnames, ?_⟩
  rintro verbose folder t _ rfl hdone
  obtain ⟨t₀, -, hfilled⟩ := filled_of_groupSteps hdone
  refine ⟨fun before d after hds hlast => read_of_last hfilled hds hlast, fun hslash => ?_⟩
  rw [oneFileEach_iff hfilled, nodup_fileLocation_iff hslash, hnames]

/-- Settings under which a file holds nothing but the lines of its declaration. -/
def plainSettings : Settings := { template := contentMark }

/-- A class with a method that needs a class for its result. -/
def lampClass : ApiClass :=
  { name := "Lamp"
    members := [{ kind := "method", name := "state"
                  type := .shape [{ kind := "property", name := "on", type := .primitive "boolean" }] }] }

theorem generate_lampClass_oneFileEach : ([lampClass].map (·.name)).Nodup ∧
    ∃ g, (generate plainSettings [lampClass]).outcome = .ok g ∧
      (perform {} (groupSteps plainSettings false ⟨"", ["out"]⟩ g.declarations)).refused = none ∧
      (∀ d ∈ g.declarations, '/' ∉ d.name.toList) ∧
      OneFileEach plainSettings ⟨"", ["out"]⟩ g.declarations
        (perform {} (groupSteps plainSettings false ⟨"", ["out"]⟩ g.declarations)).tree := by
  have hnd : ([lampClass].map (·.name)).Nodup := by decide
  have hrun : ∃ g, (generate plainSettings [lampClass]).outcome = .ok g ∧
      g.synthesized.map (·.1) = ["LampStateResult"] ∧
      g.declarations.map (·.name) = ["ILamp", "LampStateResult"] ∧
      (perform {} (groupSteps plainSettings false ⟨"", ["out"]⟩ g.declarations)).refused = none :=
    ⟨_, rfl, rfl, rfl, by decide +kernel⟩
  obtain ⟨g, hg, hentries, hnames, hdone⟩ := hrun
  have hslash : ∀ d ∈ g.declarations, '/' ∉ d.name.toList := by
    have hall : ∀ name ∈ g.declarations.map (·.name), '/' ∉ name.toList := by
      rw [hnames]
      decide
    exact fun d hd => hall _ (List.mem_map_of_mem hd)
  have hapart : NamesApart [lampClass] g := by
    refine ⟨fun c hc c' hc' _ => ?_, fun c hc => ?_⟩
    · rw [List.mem_singleton.mp hc, List.mem_singleton.mp hc']
    · rw [hentries, List.mem_singleton.mp hc]
      decide
  exact ⟨hnd, g, hg, hdone, hslash,
    (((generate_oneFileEach_iff hnd hg).2 false _ _ _ rfl hdone).2 hslash).mpr hapart⟩

/-- Two classes whose names differ in the case of the first letter. -/
def pageClasses : List ApiClass :=
  [{ name := "page"
     members := [{ kind := "property", name := "title", type := .primitive "string" }] },
   { name := "Page"
     members := [{ kind := "property", name := "url", type := .primitive "string" }] }]

/-- **Two classes that share a file**: the run succeeds, both declarations are written, and the first
is lost. -/
theorem generate_pageClasses : (pageClasses.map (·.name)).Nodup ∧
    ∃ g, (generate plainSettings pageClasses).outcome = .ok g ∧
      g.declarations.map (·.name) = ["IPage", "IPage"] ∧
      ¬ (g.declarations.map (·.name)).Nodup ∧
      (perform {} (groupSteps plainSettings false ⟨"", ["out"]⟩ g.declarations)).refused = none ∧
      (perform {} (groupSteps plainSettings false ⟨"", ["out"]⟩ g.declarations)).tree.inside.map (·.1) =
        [["out", "IPage.cs"], ["out"]] :=
  ⟨by decide, _, rfl, rfl, by decide, by decide +kernel, by decide +kernel⟩

end ApiSurface
