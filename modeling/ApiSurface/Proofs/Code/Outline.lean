import ApiSurface.Code.Synthesized
import ApiSurface.Proofs.Code.Signature
import ApiSurface.Proofs.Fallible
import ApiSurface.Proofs.Lowering.Demand

/-!
# What rendered declarations are made of

The interface of a class and a synthesized class show the signatures of members and the slots of
properties.  What their plans ask for are the declarations named in these, so it weighs no more than the
members, and less than the entry that is rendered.
-/

namespace ApiSurface

/-- The block of lines of a member with a signature. -/
structure ShowsMember (cx : Context) (owner : String) (m : Member) (s : Signature)
    (block : List String) : Prop where
  declares : Declares cx.vocabulary owner m s
  lines : ∃ comment, cx.style.docLines m.doc = .ok comment ∧
    block = comment ++ (if m.deprecated then ["[Obsolete]"] else []) ++ [s.line m]

/-- The interface of a class, with the signature and the block of lines of each member. -/
structure ShowsInterface (cx : Context) (c : ApiClass) (shown : List (Signature × List String))
    (d : Declaration) : Prop where
  name : Identifier.translate "interface" c.name none = .ok d.name
  kind : d.kind = .interfaceType
  members : List.Forall₂ (fun m p => ShowsMember cx c.name m p.1 p.2) c.members shown
  lines : ∃ comment, cx.style.docLines c.doc = .ok comment ∧ d.lines =
    Declaration.braced cx.settings.indent (comment ++ ["public interface " ++ d.name])
      (Declaration.separated (shown.map (·.2)))

/-- The block of lines of a property of a synthesized class. -/
structure ShowsProperty (cx : Context) (key : String) (p : Member) (s : Slot)
    (block : List String) : Prop where
  type : Denotes cx.vocabulary key p.name p.type s.type
  name : Identifier.translate "property" p.name (some p) = .ok s.name
  lines : ∃ comment, cx.style.docLines p.doc = .ok comment ∧
    block = comment ++ [Context.propertyLine "public " s.type.text s.name]

/-- A synthesized class, with the slot and the block of lines of each property. -/
structure ShowsClass (cx : Context) (key : String) (properties : List Member)
    (shown : List (Slot × List String)) (d : Declaration) : Prop where
  name : d.name = key
  kind : d.kind = .classType
  properties : List.Forall₂ (fun p q => ShowsProperty cx key p q.1 q.2) properties shown
  lines : d.lines = Declaration.braced cx.settings.indent ["public class " ++ key]
    (Declaration.separated (shown.map (·.2)))

/-! ### Corresponding elements -/

theorem exists_zip_of_forall₂ {α β : Type} {R : α → β → Prop} {as : List α} {bs : List β}
    (h : List.Forall₂ R as bs) {a : α} (ha : a ∈ as) : ∃ b, (a, b) ∈ as.zip bs ∧ R a b := by
  induction h with
  | nil => cases ha
  | cons hab _ ih =>
    rcases List.mem_cons.mp ha with rfl | ha
    · exact ⟨_, List.mem_cons_self, hab⟩
    · obtain ⟨b, hb, hR⟩ := ih ha
      exact ⟨b, List.mem_cons_of_mem _ hb, hR⟩

theorem exists_of_forall₂_left {α β : Type} {R : α → β → Prop} {as : List α} {bs : List β}
    (h : List.Forall₂ R as bs) {a : α} (ha : a ∈ as) : ∃ b ∈ bs, R a b := by
  obtain ⟨b, hb, hR⟩ := exists_zip_of_forall₂ h ha
  exact ⟨b, (List.of_mem_zip hb).2, hR⟩

theorem exists_of_forall₂_right {α β : Type} {R : α → β → Prop} {as : List α} {bs : List β}
    (h : List.Forall₂ R as bs) {b : β} (hb : b ∈ bs) : ∃ a ∈ as, R a b :=
  exists_of_forall₂_left (R := flip R) h.flip hb

/-! ### What is rendered -/

variable {cx : Context} {qs : List Request}

theorem yields_docLines {nodes : List DocNode} {lines : List String}
    (h : (cx.docLines nodes).Yields qs lines) : qs = [] ∧ cx.style.docLines nodes = .ok lines :=
  Plan.yields_lift_iff.mp h

theorem yields_memberLines {owner : String} {m : Member} {block : List String}
    (h : (cx.memberLines owner m).Yields qs block) :
    ∃ s, ShowsMember cx owner m s block ∧ qs.map (·.demand) = s.demands := by
  obtain ⟨qs₁, line, qs₂, hline, hrest, rfl⟩ := Plan.yields_bind_iff.mp h
  obtain ⟨s, hs, rfl, hqs⟩ := yields_declaration hline
  obtain ⟨qs₃, comment, qs₄, hdoc, hret, rfl⟩ := Plan.yields_bind_iff.mp hrest
  obtain ⟨rfl, hcomment⟩ := yields_docLines hdoc
  obtain ⟨rfl, rfl⟩ := Plan.yields_pure_iff.mp hret
  exact ⟨s, ⟨hs, comment, hcomment, rfl⟩, by simpa using hqs⟩

/-- **The interface of a class** shows a signature for each member. -/
theorem yields_interface {c : ApiClass} {d : Declaration} (h : (cx.interface c).Yields qs d) :
    ∃ shown, ShowsInterface cx c shown d ∧
      qs.map (·.demand) = shown.flatMap fun p => p.1.demands := by
  obtain ⟨qs₁, name, qs₂, hlift, hrest, rfl⟩ := Plan.yields_bind_iff.mp h
  obtain ⟨rfl, hname⟩ := Plan.yields_lift_iff.mp hlift
  obtain ⟨qs₃, comment, qs₄, hdoc, hrest', rfl⟩ := Plan.yields_bind_iff.mp hrest
  obtain ⟨rfl, hcomment⟩ := yields_docLines hdoc
  obtain ⟨qs₅, blocks, qs₆, hblocks, hret, rfl⟩ := Plan.yields_bind_iff.mp hrest'
  obtain ⟨rfl, rfl⟩ := Plan.yields_pure_iff.mp hret
  obtain ⟨shown, hshown, rfl, hqs⟩ := Plan.yields_forEach (fun _ _ _ => yields_memberLines) hblocks
  exact ⟨shown, ⟨hname, rfl, hshown, comment, hcomment, rfl⟩, by simpa using hqs⟩

theorem yields_resultProperty {key : String} {p : Member} {block : List String}
    (h : (cx.resultProperty key p).Yields qs block) :
    ∃ s, ShowsProperty cx key p s block ∧ qs.map (·.demand) = s.type.demands := by
  obtain ⟨qs₁, t, qs₂, htype, hrest, rfl⟩ := Plan.yields_bind_iff.mp h
  obtain ⟨r, hr, rfl, hqs⟩ := yields_typeOf htype
  obtain ⟨qs₃, name, qs₄, hlift, hrest', rfl⟩ := Plan.yields_bind_iff.mp hrest
  obtain ⟨rfl, hname⟩ := Plan.yields_lift_iff.mp hlift
  obtain ⟨qs₅, comment, qs₆, hdoc, hret, rfl⟩ := Plan.yields_bind_iff.mp hrest'
  obtain ⟨rfl, hcomment⟩ := yields_docLines hdoc
  obtain ⟨rfl, rfl⟩ := Plan.yields_pure_iff.mp hret
  exact ⟨⟨r, name⟩, ⟨hr, hname, comment, hcomment, rfl⟩, by simpa using hqs⟩

/-- **A synthesized class** shows a slot for each property. -/
theorem yields_resultClass {key : String} {properties : List Member} {d : Declaration}
    (h : (cx.resultClass key properties).Yields qs d) :
    ∃ shown, ShowsClass cx key properties shown d ∧
      qs.map (·.demand) = shown.flatMap fun p => p.1.type.demands := by
  obtain ⟨qs₁, blocks, qs₂, hblocks, hret, rfl⟩ := Plan.yields_bind_iff.mp h
  obtain ⟨rfl, rfl⟩ := Plan.yields_pure_iff.mp hret
  obtain ⟨shown, hshown, rfl, hqs⟩ :=
    Plan.yields_forEach (fun _ _ _ => yields_resultProperty) hblocks
  exact ⟨shown, ⟨rfl, rfl, hshown, rfl⟩, by simpa using hqs⟩

theorem enumValuesFrom_ok {key : String} {taken : List (String × String)} {literals : List String}
    {blocks : List (List String)} (h : enumValuesFrom key taken literals = .ok blocks) :
    ∃ names, List.Forall₂ (fun literal name => Identifier.valueName literal = .ok name)
      literals names ∧ blocks = List.zipWith enumValueLines literals names := by
  induction literals generalizing taken blocks with
  | nil =>
    cases h
    exact ⟨[], .nil, rfl⟩
  | cons literal literals ih =>
    unfold enumValuesFrom at h
    cases hname : Identifier.valueName literal with
    | error c =>
      rw [hname] at h
      cases h
    | ok name =>
      simp only [hname] at h
      split at h
      · cases h
      · obtain ⟨later, hlater, hret⟩ := exists_ok_of_bind h
        cases hret
        obtain ⟨names, hnames, rfl⟩ := ih hlater
        exact ⟨name :: names, .cons hname hnames, rfl⟩

/-- **An enum** is declared under its name, with a block for each literal. -/
theorem enumDeclaration_ok {indent key : String} {literals : List String} {d : Declaration}
    (h : enumDeclaration indent key literals = .ok d) : ∃ names,
      List.Forall₂ (fun literal name => Identifier.valueName literal = .ok name) literals names ∧
      d = ⟨key, .enumType, Declaration.braced indent ["public enum " ++ key]
        (Declaration.separated (List.zipWith enumValueLines literals names))⟩ := by
  obtain ⟨blocks, hblocks, hret⟩ := exists_ok_of_bind h
  cases hret
  obtain ⟨names, hnames, rfl⟩ := enumValuesFrom_ok hblocks
  exact ⟨names, hnames, rfl⟩

/-! ### Weight -/

@[simp] theorem weightOfMembers_append (ms ms' : List Member) :
    weightOfMembers (ms ++ ms') = weightOfMembers ms + weightOfMembers ms' := by
  induction ms with
  | nil => simp [weightOfMembers]
  | cons m ms ih =>
    rw [List.cons_append, weightOfMembers, weightOfMembers, ih, Nat.add_assoc]

theorem Member.weight_eq (m : Member) : m.weight = m.type.weight + weightOfMembers m.args := by
  cases m
  rfl

mutual
theorem TypeExpr.weight_optionLeaves_le : ∀ (e : TypeExpr) (ls : List Member),
    e.optionLeaves = some ls → weightOfMembers ls ≤ e.weight
  | .shape properties, ls, h => by
    obtain rfl : leaves properties = ls := by simpa [TypeExpr.optionLeaves] using h
    exact Nat.le_succ_of_le (weight_leaves_le properties)
  | .union [.primitive "null", .shape properties], ls, h => by
    obtain rfl : leaves properties = ls := by simpa [TypeExpr.optionLeaves] using h
    have hle := weight_leaves_le properties
    simp only [TypeExpr.weight, weightOfTypes]
    omega
  | .primitive _, _, h => by simp [TypeExpr.optionLeaves] at h
  | .literal _, _, h => by simp [TypeExpr.optionLeaves] at h
  | .named _, _, h => by simp [TypeExpr.optionLeaves] at h
  | .array _, _, h => by simp [TypeExpr.optionLeaves] at h
  | .union _, _, h => by
    unfold TypeExpr.optionLeaves at h
    split at h
    · rename_i heq
      cases heq
    · rename_i properties heq
      cases heq
      obtain rfl := Option.some.inj h
      have hle := weight_leaves_le properties
      simp only [TypeExpr.weight, weightOfTypes]
      omega
    · cases h
  | .map _ _, _, h => by simp [TypeExpr.optionLeaves] at h
theorem Member.weight_leaves_le : ∀ m : Member, weightOfMembers m.leaves ≤ m.weight
  | ⟨kind, name, type, preferredName, isAsync, args, doc, deprecated⟩ => by
    have hown : weightOfMembers
        [⟨kind, name, type, preferredName, isAsync, args, doc, deprecated⟩] =
          type.weight + weightOfMembers args := by
      simp [weightOfMembers, Member.weight]
    rw [Member.weight_eq]
    unfold Member.leaves
    simp only
    split
    · cases hopt : type.optionLeaves with
      | none =>
        exact Nat.le_of_eq (by rw [Option.getD_none, hown])
      | some ls =>
        have hle := TypeExpr.weight_optionLeaves_le type ls hopt
        rw [Option.getD_some]
        omega
    · exact Nat.le_of_eq hown
/-- **Flattening** options makes no weight. -/
theorem weight_leaves_le : ∀ ms : List Member, weightOfMembers (leaves ms) ≤ weightOfMembers ms
  | [] => by simp [leaves]
  | m :: ms => by
    rw [leaves, weightOfMembers_append, weightOfMembers]
    exact Nat.add_le_add (Member.weight_leaves_le m) (weight_leaves_le ms)
end

variable {predefined : List (String × List String)}

/-- If each of some members weighs at least what its part of a declaration demands, then so do all
members together. -/
theorem demandsWeight_flatMap_le {β : Type} {R : Member → β → Prop} {demands : β → List Demand}
    (hR : ∀ m b, R m b → demandsWeight predefined (demands b) ≤ m.weight) {ms : List Member}
    {bs : List β} (h : List.Forall₂ R ms bs) :
    demandsWeight predefined (bs.flatMap demands) ≤ weightOfMembers ms := by
  induction h with
  | nil => exact Nat.zero_le _
  | cons hab _ ih =>
    rw [List.flatMap_cons, demandsWeight_append, weightOfMembers]
    exact Nat.add_le_add (hR _ _ hab) ih

theorem Declares.demandsWeight_le {v : Vocabulary} {owner : String} {m : Member} {s : Signature}
    (h : Declares v owner m s) : demandsWeight predefined s.demands ≤ m.weight := by
  have htype := h.type.demandsWeight_le predefined
  have hslot : ∀ a slot, FillsArgument v owner a slot →
      demandsWeight predefined slot.type.demands ≤ a.weight := by
    intro a slot hfill
    have hle := hfill.type.demandsWeight_le predefined
    rw [Member.weight_eq]
    omega
  have hargs := demandsWeight_flatMap_le hslot h.arguments
  have hparams : weightOfMembers m.parameters ≤ weightOfMembers m.args := by
    unfold Member.parameters
    split
    · exact weight_leaves_le m.args
    · exact Nat.zero_le _
  rw [Signature.demands, demandsWeight_append, Member.weight_eq]
  omega

/-- **What an interface asks for** weighs no more than the members of its class. -/
theorem demandsWeight_interface_le {c : ApiClass} {d : Declaration}
    (h : (cx.interface c).Yields qs d) :
    entriesWeight (requested predefined qs) ≤ weightOfMembers c.members := by
  obtain ⟨shown, hshown, hqs⟩ := yields_interface h
  rw [entriesWeight_requested, hqs]
  exact demandsWeight_flatMap_le (fun _ _ hp => hp.declares.demandsWeight_le) hshown.members

/-- **What a synthesized declaration asks for** weighs less than its entry. -/
theorem thrifty_synthesized (cx : Context) (predefined : List (String × List String)) :
    Registry.Thrifty predefined cx.synthesized := by
  intro key shape qs d h
  cases shape with
  | enum values =>
    obtain ⟨rfl, -⟩ := Plan.yields_ofExcept_iff.mp h
    exact Nat.le_refl 1
  | object properties =>
    obtain ⟨shown, hshown, hqs⟩ := yields_resultClass h
    rw [entriesWeight_requested, hqs]
    refine Nat.succ_le_succ (demandsWeight_flatMap_le (fun p s hp => ?_) hshown.properties)
    have hle := hp.type.demandsWeight_le predefined
    rw [Member.weight_eq]
    omega

end ApiSurface
