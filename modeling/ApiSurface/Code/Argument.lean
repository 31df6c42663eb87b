import ApiSurface.Code.Context

/-!
# Arguments

An argument called `options` whose type is an object type, possibly nullable, stands for the
properties of that type: they become arguments in its place, at any depth. `leaves` lists the
arguments that remain, and `arguments` gives each its type and its name.
-/

namespace ApiSurface

mutual
/-- The leaves of the properties behind an argument called `options`; none if it is not of an object
type. -/
def TypeExpr.optionLeaves : TypeExpr → Option (List Member)
  | .shape properties => some (leaves properties)
  | .union [.primitive "null", .shape properties] => some (leaves properties)
  | _ => none
/-- The arguments that one argument stands for. -/
def Member.leaves : Member → List Member
  | ⟨kind, name, type, preferredName, isAsync, args, doc, deprecated⟩ =>
    let own : Member := ⟨kind, name, type, preferredName, isAsync, args, doc, deprecated⟩
    if name = "options" then type.optionLeaves.getD [own] else [own]
/-- The arguments that remain when the properties of options take their place. -/
def leaves : List Member → List Member
  | [] => []
  | m :: ms => m.leaves ++ leaves ms
end

section Pass

variable {M : Type → Type} [Monad M] {σ : Type}

mutual
/-- A pass over the properties behind an argument called `options`; none if it is not of an object
type. -/
def TypeExpr.passOver? (step : σ → Member → M σ) : TypeExpr → Option (σ → M σ)
  | .shape properties => some (passOver step properties)
  | .union [.primitive "null", .shape properties] => some (passOver step properties)
  | _ => none
/-- A pass over one argument. -/
def Member.passOver (step : σ → Member → M σ) : Member → σ → M σ
  | ⟨kind, name, type, preferredName, isAsync, args, doc, deprecated⟩ =>
    let own : Member := ⟨kind, name, type, preferredName, isAsync, args, doc, deprecated⟩
    if name = "options" then (type.passOver? step).getD (step · own) else (step · own)
/-- One pass over arguments, which goes into the properties of options where it finds them and hands
on what it has found so far. -/
def passOver (step : σ → Member → M σ) : List Member → σ → M σ
  | [] => fun found => pure found
  | m :: ms => fun found => do passOver step ms (← m.passOver step found)
end

end Pass

/-- An argument of a method as it is declared. -/
structure Argument where
  type : String
  name : String
deriving DecidableEq, Repr

namespace Context

/-- The declared forms of some leaves. Names must differ from each other and from those taken. The
type of an argument is reported through the method, all else at the place. -/
def argumentsFrom (cx : Context) (place : Place) (owner method : String) :
    (taken : List String) → List Member → Plan (List Argument)
  | _, [] => return []
  | taken, arg :: args => do
    let name ← Plan.lift place (Identifier.translate "argument" arg.name none)
    if taken.contains name then Plan.blame place (.repeatedArgument name)
    else
      let type ← Lowering.ref cx.vocabulary ⟨owner, method, some arg.name⟩ owner (some arg) arg.type
      let later ← cx.argumentsFrom place owner method (name :: taken) args
      return ⟨type, name⟩ :: later

/-- The arguments of a method, in order. -/
def arguments (cx : Context) (place : Place) (owner : String) (method : Member) :
    Plan (List Argument) :=
  cx.argumentsFrom place owner method.name [] (leaves method.args)

end Context

end ApiSurface
