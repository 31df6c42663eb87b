import ApiSurface.Proofs.CommandLine.Printing
import ApiSurface.Proofs.Files.Writing
import ApiSurface.Proofs.Protocol.Documents
import ApiSurface.Yaml.Document

/-!
# How a run over a protocol ends

Once the text of a protocol is a document, a run ends with code 0 or 1, except where there is no
report: for a document of those that `EndsUnreported` lists, for a file name that the system cannot
take, and for a text that cannot be printed or written.
-/

namespace ApiSurface

namespace Files

/-! ### Names that no tree holds -/

variable {t : Tree} {p : Path} {refusal : Refusal}

/-- The system refuses for what the tree holds, or for the length of a name. -/
def Refusal.OfSystem (refusal : Refusal) : Prop := CommandLine.uncaught? refusal = none

theorem Tree.ofSystem_of_walk {l : Location} {names : List String}
    (h : t.walk l names = .error refusal) : refusal.OfSystem := by
  induction names generalizing l with
  | nil => cases h
  | cons name names ih =>
    rw [Tree.walk] at h
    split at h
    · obtain rfl := Except.error.inj h
      rfl
    · obtain rfl := Except.error.inj h
      rfl
    · split at h
      · obtain rfl := Except.error.inj h
        rfl
      · exact ih h

/-- **A path that is not found** is refused by the system, or names no file in any tree. -/
theorem Tree.misnomer_of_locate (h : t.locate p = .error refusal) :
    refusal.OfSystem ∨ p.misnomer? = some refusal := by
  unfold Tree.locate at h
  split at h
  · next refusal' hmisnomer =>
    obtain rfl := Except.error.inj h
    exact .inr hmisnomer
  · split at h
    · obtain rfl := Except.error.inj h
      exact .inl rfl
    · exact .inl (Tree.ofSystem_of_walk h)

theorem Path.misnomer?_eq_none_iff : p.misnomer? = none ↔
    (∀ n ∈ p.codes, Text.isHalf n = true → Text.isNameByte n = true) ∧ p.hasNull = false := by
  rw [← Text.codingFault?_eq_none_iff]
  unfold Path.misnomer?
  cases Text.codingFault? Text.isNameByte 0 p.codes <;> simp

theorem Tree.misnomer_of_find (h : t.find p = .error refusal) :
    refusal.OfSystem ∨ p.misnomer? = some refusal := by
  rcases bind_eq_error_iff.mp h with hlocate | ⟨l, -, hret⟩
  · exact Tree.misnomer_of_locate hlocate
  · cases hret

theorem Tree.misnomer_of_write {bytes : ByteArray} (h : t.write p bytes = .error refusal) :
    refusal.OfSystem ∨ p.misnomer? = some refusal := by
  rcases bind_eq_error_iff.mp h with hfind | ⟨found, -, hrest⟩
  · exact Tree.misnomer_of_find hfind
  · split at hrest
    · obtain rfl := Except.error.inj hrest
      exact .inl rfl
    · cases hrest

theorem Tree.misnomer_of_ensureFolder (h : t.ensureFolder p = .error refusal) :
    refusal.OfSystem ∨ p.misnomer? = some refusal := by
  unfold Tree.ensureFolder at h
  split at h
  · cases h
  · next refusal' hmake =>
    split at h
    · cases h
    · obtain rfl := Except.error.inj h
      rcases bind_eq_error_iff.mp hmake with hfind | ⟨found, -, hrest⟩
      · exact Tree.misnomer_of_find hfind
      · split at hrest
        · cases hrest
        · obtain rfl := Except.error.inj hrest
          exact .inl rfl

theorem Path.not_ofSystem_of_misnomer (h : p.misnomer? = some refusal) : ¬ refusal.OfSystem := by
  unfold Path.misnomer? at h
  split at h
  · obtain rfl := Option.some.inj h
    nofun
  · obtain ⟨-, hnull⟩ := Option.ite_none_right_eq_some.mp h
    obtain rfl := Option.some.inj hnull
    nofun

theorem Tree.locate_of_misnomer (h : p.misnomer? = some refusal) : t.locate p = .error refusal := by
  unfold Tree.locate
  rw [h]

theorem Tree.misnomer_of_missing (h : t.ensureFolder p = .error .missing) : p.misnomer? = none := by
  cases hmisnomer : p.misnomer? with
  | none => rfl
  | some refusal =>
    have hfolder : t.ensureFolder p = .error refusal := by
      simp [Tree.ensureFolder, Tree.makeFolder, Tree.isFolder, Tree.find,
        Tree.locate_of_misnomer hmisnomer, bind, Except.bind]
    rw [hfolder] at h
    obtain rfl := Except.error.inj h
    exact absurd rfl (Path.not_ofSystem_of_misnomer hmisnomer)

theorem mem_intercalate_concat {α : Type} {sep x : List α} {a : α} {ls : List (List α)}
    (h : a ∈ sep.intercalate ls) : a ∈ sep.intercalate (ls ++ [x]) := by
  induction ls with
  | nil => simp at h
  | cons l ls ih =>
    cases ls with
    | nil =>
      rw [List.intercalate_singleton] at h
      rw [List.singleton_append, List.intercalate_cons_cons]
      exact List.mem_append_left _ (List.mem_append_left _ h)
    | cons l' ls =>
      rw [List.intercalate_cons_cons, List.mem_append] at h
      rw [List.cons_append, List.cons_append, List.intercalate_cons_cons, List.mem_append]
      exact h.imp_right ih

/-- **A folder that a path lies in** names no file in any tree only if the path does not either. -/
theorem Path.misnomer_cons {root name : String} {names : List String}
    (h : (⟨root, (name :: names).reverse⟩ : Path).misnomer? = none) :
    (⟨root, names.reverse⟩ : Path).misnomer? = none := by
  rw [misnomer?_eq_none_iff] at h ⊢
  obtain ⟨hcodes, hnull⟩ := h
  rw [List.reverse_cons] at hcodes hnull
  refine ⟨fun n hn => hcodes n ?_, ?_⟩
  · unfold Path.codes at hn ⊢
    rw [List.mem_append] at hn ⊢
    rw [List.map_append]
    exact hn.imp_right mem_intercalate_concat
  · unfold Path.hasNull at hnull ⊢
    rw [List.any_append, Bool.or_eq_false_iff] at hnull
    exact hnull.1

theorem Tree.misnomer_of_ensureFoldersFrom {root : String} {names : List String} {q : Path}
    (h : (ensureFoldersFrom root names t).2 = some (q, refusal)) :
    refusal.OfSystem ∨ (⟨root, names.reverse⟩ : Path).misnomer? = some refusal := by
  induction names generalizing t with
  | nil =>
    unfold ensureFoldersFrom at h
    simp only at h
    split at h
    · cases h
    · next refusal' hrefusal =>
      obtain ⟨-, rfl⟩ := Prod.mk.inj (Option.some.inj h)
      exact Tree.misnomer_of_ensureFolder hrefusal
  | cons name names ih =>
    unfold ensureFoldersFrom at h
    simp only at h
    split at h
    · cases h
    · next hmissing =>
      split at h
      · -- the path itself is missing, so it is a name, and so are those of the folders it lies in
        next t' refused houter =>
        have hname := Path.misnomer_cons (Tree.misnomer_of_missing hmissing)
        refine .inl ((ih (t := t) ?_).resolve_right ?_)
        · rw [houter]
          exact h
        · rw [hname]
          nofun
      · split at h
        · cases h
        · next refusal' hrefusal =>
          obtain ⟨-, rfl⟩ := Prod.mk.inj (Option.some.inj h)
          exact Tree.misnomer_of_ensureFolder hrefusal
    · next refusal' _ hrefusal =>
      obtain ⟨-, rfl⟩ := Prod.mk.inj (Option.some.inj h)
      exact Tree.misnomer_of_ensureFolder hrefusal

theorem Tree.misnomer_of_ensureFolders {q : Path}
    (h : (t.ensureFolders p).2 = some (q, refusal)) :
    refusal.OfSystem ∨ p.misnomer? = some refusal := by
  have hparts := Tree.misnomer_of_ensureFoldersFrom h
  rwa [List.reverse_reverse] at hparts

end Files

namespace CommandLine

open Files (Path Tree Refusal)

/-- Why a step is refused whatever the tree holds. -/
def Step.misfit? : Step → Option Refusal
  | .ensureFolder path => path.misnomer?
  | .write path text =>
    match path.misnomer?, Text.release text with
    | some refusal, _ => some refusal
    | none, .error fault => some (.encoding fault)
    | none, .ok _ => none
  | .report _ => none

theorem misfit_of_writeText {t : Tree} {path : Path} {text : String} {refusal : Refusal}
    (h : (t.writeText path text).2 = some refusal) :
    refusal.OfSystem ∨ (Step.write path text).misfit? = some refusal := by
  have hrefused : ∀ {bytes : ByteArray}, t.write path bytes = .error refusal →
      refusal.OfSystem ∨ (Step.write path text).misfit? = some refusal := fun hwrite =>
    (Tree.misnomer_of_write hwrite).imp_right fun hmisnomer => by rw [Step.misfit?, hmisnomer]
  unfold Tree.writeText at h
  cases htext : Text.release text with
  | ok s =>
    simp only [htext] at h
    split at h
    · cases h
    · next hwrite =>
      obtain rfl := Option.some.inj h
      exact hrefused hwrite
  | error fault =>
    simp only [htext] at h
    split at h
    · next hwrite =>
      -- the file is written, so its path is a name, and the text is what cannot be encoded
      obtain rfl := Option.some.inj h
      have hmisnomer : path.misnomer? = none := by
        cases hname : path.misnomer? with
        | none => rfl
        | some refusal =>
          obtain ⟨hlocate, -⟩ := Tree.write_ok_iff.mp hwrite
          rw [Tree.locate_of_misnomer hname] at hlocate
          cases hlocate
      refine .inr ?_
      rw [Step.misfit?, hmisnomer, htext]
    · next hwrite =>
      obtain rfl := Option.some.inj h
      exact hrefused hwrite

/-- **A step that is refused** is refused by the system, or cannot be taken on any tree. -/
theorem misfit_of_perform {t : Tree} {steps : List Step} {path : Path} {refusal : Refusal}
    (h : (perform t steps).refused = some (path, refusal)) :
    refusal.OfSystem ∨ ∃ step ∈ steps, step.misfit? = some refusal := by
  induction steps generalizing t with
  | nil => cases h
  | cons step steps ih =>
    have hlater : ∀ {t' : Tree}, (perform t' steps).refused = some (path, refusal) →
        refusal.OfSystem ∨ ∃ step' ∈ step :: steps, step'.misfit? = some refusal :=
      fun h' => (ih h').imp_right fun ⟨step', hmem, hmisfit⟩ =>
        ⟨step', List.mem_cons_of_mem _ hmem, hmisfit⟩
    cases step with
    | report message => exact hlater h
    | ensureFolder folder =>
      rw [perform] at h
      split at h
      · exact hlater h
      · next t' refused hrefused =>
        obtain rfl := Option.some.inj h
        exact (Tree.misnomer_of_ensureFolders (congrArg Prod.snd hrefused)).imp_right fun hmisfit =>
          ⟨_, List.mem_cons_self, hmisfit⟩
    | write file text =>
      rw [perform] at h
      split at h
      · exact hlater h
      · next t' refusal' hrefusal =>
        obtain ⟨-, rfl⟩ := Prod.mk.inj (Option.some.inj h)
        exact (misfit_of_writeText (congrArg Prod.snd hrefusal)).imp_right fun hmisfit =>
          ⟨_, List.mem_cons_self, hmisfit⟩

/-! ### Runs -/

section Channels

variable {yaml : Yaml.Reader} {o : Options} {read : Path → Reading} {settings : Settings} {d : Value}

/-- A run over a protocol, with its settings and the document that its text is. -/
structure ReadsDocument (yaml : Yaml.Reader) (o : Options) (read : Path → Reading)
    (settings : Settings) (d : Value) : Prop where
  mode : o.mode = .channels
  settings : settingsOf o read = .ok settings
  text : ∃ text, read (Path.ofString (o.inputFile.getD "")) = .text text ∧
    yaml text = .ok d

/-- What is left to do for a document, once its channels are generated or a fault is found. -/
def jobOf (o : Options) (settings : Settings) : Except Fault Protocol.Channels → Job
  | .error (.report report) => .stop 1 report.message
  | .error fault => .crash fault
  | .ok c =>
    match o.outputFolder with
    | none => .print (pieces settings c.all)
    | some folder => .fill folder (fillSteps settings o.verbose folder c.groups)

/-- **What is left to do** is decided by what comes of the document. -/
theorem ReadsDocument.prepare_eq (h : ReadsDocument yaml o read settings d) :
    prepare yaml o read = ⟨[], jobOf o settings (Protocol.generateDocument settings d)⟩ := by
  obtain ⟨hmode, hsettings, text, htext, hd⟩ := h
  have hread : Protocol.read yaml text = Protocol.itemsOf d := by
    unfold Protocol.read
    rw [hd]
  have hgroups : generateProtocol yaml settings (Path.ofString (o.inputFile.getD "")) (.text text) =
      (Protocol.generateDocument settings d).map Protocol.Channels.groups := by
    show (Protocol.read yaml text >>= fun items => Protocol.generateChannels settings items >>= fun c =>
      pure c.groups) = _
    rw [hread, Protocol.generateDocument]
    cases Protocol.itemsOf d with
    | error fault => rfl
    | ok items =>
      show (Protocol.generateChannels settings items >>= fun c => pure c.groups) =
        (Protocol.generateChannels settings items).map _
      cases Protocol.generateChannels settings items <;> rfl
  have hlog : ∀ b : Bool, (if b = true then ([] : List String) else []) = [] := by simp
  unfold prepare generateGroups
  simp only [hsettings, hmode, htext, hgroups, hlog]
  cases Protocol.generateDocument settings d with
  | error fault => cases fault <;> rfl
  | ok c =>
    have hall : c.groups.flatMap (·.2) = c.all := by
      simp [Protocol.Channels.groups, Protocol.Channels.all]
    simp only [Except.map, jobOf, hall]
    cases o.outputFolder <;> rfl

/-- **How a run ends that has generated channels.**  It prints them, with code 0, unless a piece cannot
be encoded; or it writes them, with code 0, or with code 1 and a message, unless a step cannot be taken
on any tree. -/
def EndsDelivered (o : Options) (settings : Settings) (c : Protocol.Channels) (tree : Tree)
    (ended : Outcome) : Prop :=
  match o.outputFolder with
  | none => ended.errorLines = [] ∧ ended.tree = tree ∧
      ((ended.status = .code 0 ∧ PrintsAll (pieces settings c.all) ended.printed) ∨
        ∃ fault, ended.status = .uncaught (.encoding fault) ∧
          PrintsUpTo (pieces settings c.all) ended.printed fault)
  | some folder => ended.printed = "" ∧ (ended.status = .code 0 ∨
      (ended.status = .code 1 ∧
        ∃ reason, "error: cannot write '" ++ folder ++ "': " ++ reason ∈ ended.errorLines) ∨
      ∃ step ∈ fillSteps settings o.verbose folder c.groups, ∃ refusal fault,
        step.misfit? = some refusal ∧ uncaught? refusal = some fault ∧
          ended.status = .uncaught fault)

theorem endsDelivered (o : Options) (settings : Settings) (c : Protocol.Channels) (tree : Tree) :
    EndsDelivered o settings c tree
      ((⟨[], jobOf o settings (.ok c)⟩ : Preparation).finish tree) := by
  unfold EndsDelivered jobOf
  cases o.outputFolder with
  | none =>
    refine ⟨rfl, rfl, ?_⟩
    simp only [Preparation.finish, Printing.status]
    rcases printPieces_cases (pieces settings c.all) with ⟨hnone, hall⟩ | ⟨fault, hfault, hupto⟩
    · rw [hnone]
      exact .inl ⟨rfl, hall⟩
    · rw [hfault]
      exact .inr ⟨fault, rfl, hupto⟩
  | some folder =>
    refine ⟨rfl, ?_⟩
    simp only [Preparation.finish]
    cases hrefused : (perform tree (fillSteps settings o.verbose folder c.groups)).refused with
    | none => exact .inl rfl
    | some refused =>
      obtain ⟨path, refusal⟩ := refused
      simp only [statusOf]
      cases huncaught : uncaught? refusal with
      | none => exact .inr (.inl ⟨rfl, _, List.mem_append_right _ (List.mem_singleton_self _)⟩)
      | some fault =>
        have hsystem : ¬ refusal.OfSystem := by
          unfold Files.Refusal.OfSystem
          rw [huncaught]
          nofun
        obtain ⟨step, hmem, hmisfit⟩ := (misfit_of_perform hrefused).resolve_left hsystem
        exact .inr (.inr ⟨step, hmem, refusal, fault, hmisfit, huncaught, rfl⟩)

/-- **What comes of a protocol document**, whatever it holds.

* A fault that is no report comes of it if and only if it is one of the documents without a report.
* A report is about the input, a type, a name that is taken or an empty name.
* A run of the program over it ends accordingly: in the fault, which nothing catches; with code 1 and
  the message of the report, and without a change to the files; or with what was generated. -/
theorem finish_prepare_channels (settings : Settings) (d : Value) :
    (∀ fault, (Protocol.generateDocument settings d = .error fault ∧
        ∀ report, fault ≠ .report report) ↔ Protocol.EndsUnreported settings d fault) ∧
    (∀ report, Protocol.generateDocument settings d = .error (.report report) →
      report.cause.category ∈ [.input, .malformedType, .nameCollision, .emptyName]) ∧
    ∀ yaml o read, ReadsDocument yaml o read settings d → ∀ tree,
      (∀ fault, Protocol.EndsUnreported settings d fault →
        (prepare yaml o read).finish tree = ⟨.uncaught fault, "", [], tree⟩) ∧
      (∀ report, Protocol.generateDocument settings d = .error (.report report) →
        (prepare yaml o read).finish tree = ⟨.code 1, "", [report.message], tree⟩) ∧
      ∀ c, Protocol.generateDocument settings d = .ok c →
        EndsDelivered o settings c tree ((prepare yaml o read).finish tree) := by
  refine ⟨fun _ => Protocol.generateDocument_error_iff, fun report h => ?_, fun yaml o read hreads tree =>
    ⟨fun fault h => ?_, fun report h => ?_, fun c h => ?_⟩⟩
  · rcases Protocol.generateDocument_error h with ⟨report', hreport, hcategory⟩ | hunreported
    · obtain rfl := Fault.report.inj hreport
      exact hcategory
    · exact absurd rfl (hunreported.not_report report)
  · obtain ⟨hfault, hno⟩ := Protocol.generateDocument_error_iff.mpr h
    rw [hreads.prepare_eq, hfault]
    cases fault with
    | report report => exact absurd rfl (hno report)
    | missingKey _ | notIterable _ | numeral _ | code _ | nullInPath | encoding _ => rfl
  · rw [hreads.prepare_eq, h]
    rfl
  · rw [hreads.prepare_eq, h]
    exact endsDelivered o settings c tree

end Channels

/-- The options of a run over a protocol that prints. -/
def protocolOptions : Options := { mode := .channels, inputFile := some "protocol.yml" }

/-- The settings that these options ask for. -/
def protocolSettings : Settings := { toolVersion := "csapi channels" }

/-- A protocol with an unknown type. -/
def linkText : String := "Page:\n  type: object\n  properties: \x7blink: uri\x7d\n"

/-- The document that this protocol is. -/
def linkDocument : Value :=
  .map [(.text "Page", .map [(.text "type", .text "object"),
    (.text "properties", .map [(.text "link", .text "uri")])])]

theorem readsDocument_linkText :
    ReadsDocument Yaml.read? protocolOptions (fun _ => .text linkText) protocolSettings linkDocument :=
  ⟨rfl, rfl, linkText, rfl, by decide +kernel⟩

theorem finish_prepare_linkText :
    ReadsDocument Yaml.read? protocolOptions (fun _ => .text linkText) protocolSettings linkDocument ∧
    (∀ fault, ¬ Protocol.EndsUnreported protocolSettings linkDocument fault) ∧
    (prepare Yaml.read? protocolOptions fun _ => .text linkText).finish {} =
      ⟨.code 1, "", ["error: [malformed-type] Page.link: unknown type 'uri'"], {}⟩ := by
  have hfault : Protocol.generateDocument protocolSettings linkDocument =
      .error (.report ⟨.unknownChannelType "uri", "Page", "link"⟩) := by decide +kernel
  obtain ⟨hunreported, -, hruns⟩ := finish_prepare_channels protocolSettings linkDocument
  obtain ⟨-, hreport, -⟩ := hruns _ _ _ readsDocument_linkText {}
  refine ⟨readsDocument_linkText, fun fault h => ?_, hreport _ hfault⟩
  obtain ⟨hfault', hno⟩ := (hunreported fault).mpr h
  rw [hfault] at hfault'
  exact hno _ (Except.error.inj hfault').symm

/-- A protocol with an enum whose literals are a number. -/
def stateText : String :=
  "Frame:\n  type: object\n  properties:\n    state: \x7btype: enum, literals: 5\x7d\n"

/-- The document that this protocol is. -/
def stateDocument : Value :=
  .map [(.text "Frame", .map [(.text "type", .text "object"),
    (.text "properties", .map [(.text "state", .map [(.text "type", .text "enum"),
      (.text "literals", .int 5)])])])]

/-- The run ends with a fault that nothing catches, and without a message. -/
theorem finish_prepare_stateText :
    ReadsDocument Yaml.read? protocolOptions (fun _ => .text stateText) protocolSettings stateDocument ∧
    Protocol.generateDocument protocolSettings stateDocument = .error (.notIterable "int") ∧
    (prepare Yaml.read? protocolOptions fun _ => .text stateText).finish {} =
      ⟨.uncaught (.notIterable "int"), "", [], {}⟩ := by
  have hreads : ReadsDocument Yaml.read? protocolOptions (fun _ => .text stateText) protocolSettings
      stateDocument := ⟨rfl, rfl, stateText, rfl, by decide +kernel⟩
  have hfault : Protocol.generateDocument protocolSettings stateDocument =
      .error (.notIterable "int") := by decide +kernel
  refine ⟨hreads, hfault, ?_⟩
  rw [hreads.prepare_eq, hfault]
  rfl

end CommandLine

end ApiSurface
