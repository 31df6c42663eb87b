import ApiSurface.Registry.Basic

/-!
# Weight

The weight of a type expression is the number of unions and object types in it, at any depth. Only
these ask for declarations, each for one at most, so weights bound what a run can synthesize.
-/

namespace ApiSurface

mutual
/-- The number of unions and object types in a type expression. -/
def TypeExpr.weight : TypeExpr → Nat
  | .primitive _ | .literal _ | .named _ => 0
  | .array element => element.weight
  | .union members => weightOfTypes members + 1
  | .shape properties => weightOfMembers properties + 1
  | .map key value => key.weight + value.weight
termination_by structural e => e
/-- The number of unions and object types in some type expressions. -/
def weightOfTypes : List TypeExpr → Nat
  | [] => 0
  | e :: es => e.weight + weightOfTypes es
termination_by structural es => es
/-- The number of unions and object types in the type of a member and those of its arguments. -/
def Member.weight : Member → Nat
  | ⟨_, _, type, _, _, args, _, _⟩ => type.weight + weightOfMembers args
termination_by structural m => m
/-- The number of unions and object types in some members. -/
def weightOfMembers : List Member → Nat
  | [] => 0
  | m :: ms => m.weight + weightOfMembers ms
termination_by structural ms => ms
end

/-- The number of declarations that a registered shape can lead to, itself included. -/
def Shape.weight : Shape → Nat
  | .object properties => weightOfMembers properties + 1
  | .enum _ => 1

/-- The number of declarations that the entries of a registry can lead to. -/
def Registry.weight (r : Registry) : Nat := r.entries.foldr (fun entry n => entry.2.weight + n) 0

end ApiSurface
