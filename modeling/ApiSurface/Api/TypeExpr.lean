/-!
# Types and members

A type expression says what a member of an API yields or takes. An object type without a name of its
own lists its properties, and properties are members, so the two are defined together.
-/

namespace ApiSurface

/-- One node of documentation. The kind says which of the other fields count: prose has its text, a
list item (`li`) its text and the type of its list, code its lines, a note its text. -/
structure DocNode where
  kind : String
  text : String := ""
  lines : List String := []
  listType : String := "bullet"
deriving DecidableEq, Repr, Inhabited

mutual
/-- A type expression. -/
inductive TypeExpr where
  /-- A built-in type; `null` counts as one. -/
  | primitive (name : String)
  /-- A string literal with its quotes. -/
  | literal (text : String)
  /-- A class, by the name it has in the description. -/
  | named (name : String)
  | array (element : TypeExpr)
  | union (members : List TypeExpr)
  /-- An object type without a name. -/
  | shape (properties : List Member)
  /-- An object type from keys to values. -/
  | map (key value : TypeExpr)
/-- A member of a class, an argument of a method or a property of an object type. -/
structure Member where
  kind : String
  name : String
  type : TypeExpr
  /-- The name to use in place of the one that would be made from `name`. -/
  preferredName : Option String := none
  isAsync : Bool := false
  args : List Member := []
  doc : List DocNode := []
  deprecated : Bool := false
end

instance : Inhabited TypeExpr := ⟨.primitive "void"⟩

instance : Inhabited Member := ⟨⟨"property", "", default, none, false, [], [], false⟩⟩

/-- A documented class. -/
structure ApiClass where
  name : String
  members : List Member := []
  doc : List DocNode := []

namespace TypeExpr

/-- The null type. -/
def null : TypeExpr := .primitive "null"

mutual
/-- Whether two type expressions are the same. -/
def same : TypeExpr → TypeExpr → Bool
  | .primitive a, .primitive b => a == b
  | .literal a, .literal b => a == b
  | .named a, .named b => a == b
  | .array a, .array b => same a b
  | .union as, .union bs => sameAll as bs
  | .shape as, .shape bs => sameMembers as bs
  | .map k v, .map k' v' => same k k' && same v v'
  | _, _ => false
termination_by structural a => a
/-- Whether two lists of type expressions are the same. -/
def sameAll : List TypeExpr → List TypeExpr → Bool
  | [], [] => true
  | a :: as, b :: bs => same a b && sameAll as bs
  | _, _ => false
termination_by structural as => as
/-- Whether two members are the same. -/
def sameMember : Member → Member → Bool
  | ⟨kind, name, type, preferredName, isAsync, args, doc, deprecated⟩,
    ⟨kind', name', type', preferredName', isAsync', args', doc', deprecated'⟩ =>
    kind == kind' && name == name' && same type type' && preferredName == preferredName' &&
      isAsync == isAsync' && sameMembers args args' && doc == doc' && deprecated == deprecated'
termination_by structural a => a
/-- Whether two lists of members are the same. -/
def sameMembers : List Member → List Member → Bool
  | [], [] => true
  | a :: as, b :: bs => sameMember a b && sameMembers as bs
  | _, _ => false
termination_by structural as => as
end

mutual
theorem same_iff : ∀ a b : TypeExpr, same a b = true ↔ a = b
  | .primitive a, b => by cases b <;> simp [same]
  | .literal a, b => by cases b <;> simp [same]
  | .named a, b => by cases b <;> simp [same]
  | .array a, b => by cases b <;> simp [same, same_iff a]
  | .union as, b => by cases b <;> simp [same, sameAll_iff as]
  | .shape as, b => by cases b <;> simp [same, sameMembers_iff as]
  | .map k v, b => by cases b <;> simp [same, same_iff k, same_iff v]
theorem sameAll_iff : ∀ as bs : List TypeExpr, sameAll as bs = true ↔ as = bs
  | [], bs => by cases bs <;> simp [sameAll]
  | a :: as, bs => by cases bs <;> simp [sameAll, same_iff a, sameAll_iff as]
theorem sameMember_iff : ∀ a b : Member, sameMember a b = true ↔ a = b
  | ⟨_, _, type, _, _, args, _, _⟩, b => by
    cases b
    simp [sameMember, same_iff type, sameMembers_iff args, and_assoc]
theorem sameMembers_iff : ∀ as bs : List Member, sameMembers as bs = true ↔ as = bs
  | [], bs => by cases bs <;> simp [sameMembers]
  | a :: as, bs => by cases bs <;> simp [sameMembers, sameMember_iff a, sameMembers_iff as]
end

instance : DecidableEq TypeExpr := fun a b => decidable_of_iff _ (same_iff a b)

instance : DecidableEq Member := fun a b => decidable_of_iff _ (sameMember_iff a b)

/-- The type inside a nullable type, that is a union of null and one other type; any other type is
itself. -/
def nonNull : TypeExpr → TypeExpr
  | .union [.primitive "null", inner] => inner
  | e => e

/-- Whether a type is a string literal. -/
def isLiteral : TypeExpr → Bool
  | .literal _ => true
  | _ => false

/-- The name of the form of a type expression, for messages. -/
def form : TypeExpr → String
  | .primitive _ => "Primitive"
  | .literal _ => "Literal"
  | .named _ => "Named"
  | .array _ => "Array"
  | .union _ => "Union"
  | .shape _ => "ObjectShape"
  | .map _ _ => "Map"

end TypeExpr

deriving instance DecidableEq for ApiClass

end ApiSurface
