import ApiSurface.Code.Synthesized

/-!
# Rendering depends on class names by lookup only

Two contexts agree if they have the same settings and links and give every class the same name.  The
order in which their class names stand does not matter.
-/

namespace ApiSurface

/-- The same rule for unions, and the same name for every class. -/
structure Vocabulary.Agrees (v v' : Vocabulary) : Prop where
  strictUnions : v.strictUnions = v'.strictUnions
  lookup : ∀ name, v.classNames.lookup name = v'.classNames.lookup name

/-- The same settings and links, and the same name for every class. -/
structure Context.Agrees (cx cx' : Context) : Prop where
  settings : cx.settings = cx'.settings
  links : cx.links = cx'.links
  lookup : ∀ name, cx.classNames.lookup name = cx'.classNames.lookup name

/-- **Lowering** is the same under vocabularies that agree. -/
theorem Vocabulary.Agrees.ref_eq {v v' : Vocabulary} (h : v.Agrees v') (place : Place)
    (owner : String) (member : Option Member) (e : TypeExpr) :
    Lowering.ref v place owner member e = Lowering.ref v' place owner member e := by
  have hunion : ∀ members, Lowering.unionRef v place owner member members =
      Lowering.unionRef v' place owner member members := by
    intro members
    unfold Lowering.unionRef
    rw [h.strictUnions]
  induction e using Lowering.ref.induct with
  | case1 inner ih => rw [Lowering.ref, Lowering.ref, ih]
  | case2 rest hrest =>
    rw [Lowering.ref, Lowering.ref]
    · exact hrest
    · exact hrest
  | case3 members hnull =>
    rw [Lowering.ref, Lowering.ref]
    · exact hunion members
    · exact hnull
    · exact hnull
  | case4 element inner hnested => rw [Lowering.ref, Lowering.ref, hnested]
  | case5 element hone ih => rw [Lowering.ref, Lowering.ref, ih]
  | case6 name type hlook => rw [Lowering.ref, Lowering.ref]
  | case7 name hlook => rw [Lowering.ref, Lowering.ref]
  | case8 text => rw [Lowering.ref, Lowering.ref]
  | case9 properties => rw [Lowering.ref, Lowering.ref]
  | case10 key value ihk ihv => rw [Lowering.ref, Lowering.ref, ihk, ihv]
  | case11 name => rw [Lowering.ref, Lowering.ref, h.lookup]

namespace Context.Agrees

variable {cx cx' : Context}

theorem vocabulary (h : cx.Agrees cx') : cx.vocabulary.Agrees cx'.vocabulary :=
  ⟨congrArg Settings.strictUnions h.settings, h.lookup⟩

theorem docLines_eq (h : cx.Agrees cx') (nodes : List DocNode) :
    cx.docLines nodes = cx'.docLines nodes := by
  unfold docLines style
  rw [h.settings, h.links]

theorem typeOf_eq (h : cx.Agrees cx') (owner : String) (m : Member) :
    cx.typeOf owner m = cx'.typeOf owner m :=
  h.vocabulary.ref_eq _ _ _ _

theorem argumentsFrom_eq (h : cx.Agrees cx') (place : Place) (owner method : String)
    (taken : List String) (args : List Member) :
    cx.argumentsFrom place owner method taken args =
      cx'.argumentsFrom place owner method taken args := by
  induction args generalizing taken with
  | nil => rfl
  | cons arg args ih =>
    unfold argumentsFrom
    simp only [h.vocabulary.ref_eq, ih]

theorem declaration_eq (h : cx.Agrees cx') (owner : String) (m : Member) :
    cx.declaration owner m = cx'.declaration owner m := by
  unfold declaration arguments
  simp only [h.typeOf_eq, h.argumentsFrom_eq]

/-- **The interface** of a class is the same in contexts that agree. -/
theorem interface_eq (h : cx.Agrees cx') (c : ApiClass) : cx.interface c = cx'.interface c := by
  have hlines : ∀ m, cx.memberLines c.name m = cx'.memberLines c.name m := by
    intro m
    unfold memberLines
    rw [h.declaration_eq, h.docLines_eq]
  unfold interface
  rw [funext hlines, h.docLines_eq, h.settings]

/-- **A synthesized declaration** is the same in contexts that agree. -/
theorem synthesized_eq (h : cx.Agrees cx') (key : String) (shape : Shape) :
    cx.synthesized key shape = cx'.synthesized key shape := by
  cases shape with
  | enum values =>
    unfold synthesized
    rw [h.settings]
  | object properties =>
    have hproperty : ∀ p, cx.resultProperty key p = cx'.resultProperty key p := by
      intro p
      unfold resultProperty
      rw [h.typeOf_eq, h.docLines_eq]
    unfold synthesized resultClass
    rw [funext hproperty, h.settings]

end Context.Agrees

end ApiSurface
