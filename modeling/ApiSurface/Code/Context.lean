import ApiSurface.Comment.Block
import ApiSurface.Declaration
import ApiSurface.Lowering

/-!
# Rendering context

What the rendering of declarations depends on beside the declaration itself.
-/

namespace ApiSurface

/-- The settings of a run, the names of its classes, and what resolves the links of its prose. -/
structure Context where
  settings : Settings := {}
  classNames : ClassNames := []
  links : Comment.LinkResolver := Comment.noLinks

namespace Context

/-- What lowering depends on. -/
def vocabulary (cx : Context) : Vocabulary := ⟨cx.classNames, cx.settings.strictUnions⟩

/-- How prose is written. -/
def style (cx : Context) : Comment.ProseStyle := ⟨cx.settings.maxColumnWidth, cx.links⟩

/-- The comment for some documentation. A fault in a link has no place. -/
def docLines (cx : Context) (nodes : List DocNode) : Plan (List String) :=
  Plan.lift {} (cx.style.docLines nodes)

/-- The type of a member of an owner. -/
def typeOf (cx : Context) (owner : String) (m : Member) : Plan String :=
  m.type.lowered cx.vocabulary owner (some m)

end Context

end ApiSurface
