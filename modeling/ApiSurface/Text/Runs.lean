/-!
# Runs

`runs p xs` lists the maximal stretches of neighbours in `xs` that satisfy `p`, in order. Words,
tokens and the parts of an identifier are runs.
-/

namespace ApiSurface.Text

variable {α : Type}

/-- Puts a stretch in front of the later ones unless it is empty. -/
def consRun (run : List α) (later : List (List α)) : List (List α) :=
  if run.isEmpty then later else run :: later

/-- The stretch that begins at the front, possibly empty, and the stretches after it. -/
def runsFrom (p : α → Bool) : List α → List α × List (List α)
  | [] => ([], [])
  | x :: xs =>
    let (run, later) := runsFrom p xs
    if p x then (x :: run, later) else ([], consRun run later)

/-- The maximal stretches of elements that satisfy `p`. -/
def runs (p : α → Bool) (xs : List α) : List (List α) :=
  consRun (runsFrom p xs).1 (runsFrom p xs).2

end ApiSurface.Text
